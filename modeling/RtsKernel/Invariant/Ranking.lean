import RtsKernel.Invariant.State

/-!
# Rate-monotonic ranking

`rts_policy_rms_assign_priorities` gives every slot it includes its rank as base and effective
priority. The slots and periods it reads do not change along the way, so the ranks are those of the
state it starts from.
-/

namespace RtsKernel

open Halting Prog

variable {cfg : Config} {k k₁ k' : Kernel} {t u newTask : TaskId} {R : TaskId → Prop} {i : Nat}
  {l : List Nat} {E : Fatal → Kernel → Prop}

/-! ## Order of creation -/

/-- Application tasks are created in the order of their slots. -/
def TaskId.Precedes : TaskId → TaskId → Prop
  | .slot i, .slot j => i < j
  | _, _ => True

/-- Ready tasks of the same period are queued in the order of their creation. -/
def Kernel.InOrder (k : Kernel) : Prop :=
  ∀ p, (k.readySet p).Pairwise fun a b => (k.tasks a).period = (k.tasks b).period → a.Precedes b

/-- Tasks of the same period share a queue until the loop comes to them, and the slots `l` that it
still has to visit are the last ones. -/
structure Orderly (k : Kernel) (R : TaskId → Prop) (l : List Nat) : Prop where
  inOrder : k.InOrder
  together : ∀ i ∈ l, ∀ j, R (.slot j) → (k.tasks (.slot j)).period = (k.tasks (.slot i)).period →
    k.prio (.slot j) = k.prio (.slot i) ∧ j ∈ l ∨ j < i

/-! ## Ranks -/

/-- The ranking loop has gone over the slots of `l`. -/
structure Ranks (cfg : Config) (k k' : Kernel) (newTask : TaskId) (R : TaskId → Prop)
    (l : List Nat) : Prop where
  frame : k' = { k with tasks := k'.tasks, readySet := k'.readySet, edfReady := k'.edfReady }
  task : ∀ u, k'.tasks u = { k.tasks u with
    basePriority := (k'.tasks u).basePriority
    priority := (k'.tasks u).priority }
  ranked : ∀ i ∈ l, RmsIncluded k newTask (.slot i) →
    (k'.tasks (.slot i)).basePriority = rmsRank cfg k newTask (.slot i) ∧
    (k'.tasks (.slot i)).priority = rmsRank cfg k newTask (.slot i)
  others : ∀ u, (∀ i ∈ l, u = .slot i → ¬ RmsIncluded k newTask u) → k'.tasks u = k.tasks u
  ordered : Orderly k R l → k'.InOrder

theorem rmsRank_pos (k : Kernel) : 0 < rmsRank cfg k newTask t := by
  unfold rmsRank
  omega

/-- A slot does not count among those of longer period. -/
theorem rmsRank_le (hi : i < cfg.maxTasks) : rmsRank cfg k newTask (.slot i) ≤ cfg.maxTasks := by
  have hlt : ((List.range cfg.maxTasks).countP fun j => decide (RmsIncluded k newTask (.slot j) ∧
      (k.tasks (.slot i)).period < (k.tasks (.slot j)).period)) <
      (List.range cfg.maxTasks).length := by
    refine lt_of_le_of_ne List.countP_le_length fun heq => ?_
    have := List.countP_eq_length.mp heq i (by simpa using hi)
    simp at this
  rw [List.length_range] at hlt
  unfold rmsRank
  omega

theorem rmsRank_lt (hpol : cfg.policy = .rms) (hi : i < cfg.maxTasks) :
    rmsRank cfg k newTask (.slot i) < cfg.priorityCount := by
  have hle : rmsRank cfg k newTask (.slot i) ≤ cfg.maxTasks := rmsRank_le hi
  have hcount := (cfg.rms_ranks hpol).1
  omega

/-! ## One slot -/

/-- One slot has been given the priority `p`. -/
structure RanksOne (k k' : Kernel) (t : TaskId) (p : Nat) (R : TaskId → Prop) : Prop where
  frame : k' = { k with tasks := k'.tasks, readySet := k'.readySet, edfReady := k'.edfReady }
  tasks : k'.tasks = Function.update k.tasks t
    { k.tasks t with basePriority := p, priority := p }
  readySet : k'.readySet = k.readySet ∨
    R t ∧ k.prio t ≠ p ∧ k'.readySet = movedTo k.readySet t p

theorem wp_rankOne {Q : Unit → Kernel → Prop} {p : Nat} (hpol : cfg.policy = .rms)
    (h : ReadyOk cfg k.readySet k.edfReady k.prio R) (hp0 : p ≠ 0) (hp : p < cfg.priorityCount)
    (hrange : k.prio t < cfg.priorityCount)
    (hQ : ∀ k', RanksOne k k' t p R → ReadyOk cfg k'.readySet k'.edfReady k'.prio R → Q () k') :
    wp (do
      modify fun k => k.updateTask t fun task => { task with basePriority := p }
      let _ ← policyFpPriorityChanged cfg t p) Q E k := by
  have hprio : (k.updateTask t fun task => { task with basePriority := p }).prio = k.prio :=
    prio_update rfl
  simp only [wp_bind, wp_modify]
  apply wp_policyFpPriorityChanged (R := R) (by rw [hprio]; exact h) (by simp [hpol]) hp0 hp
    (by rw [hprio]; exact hrange)
  intro rs er hready hrs
  rw [hprio] at hready hrs
  rw [wp_pure]
  refine hQ _ ⟨rfl, ?_, hrs⟩ ?_
  · simp [Kernel.updateTask]
  · refine hready.congr (fun _ => Iff.rfl) fun u => ?_
    rcases eq_or_ne u t with rfl | hu
    · simp [Kernel.prio]
    · simp [Kernel.prio, hu]

theorem RanksOne.prio_lt {p : Nat} (h : RanksOne k k' t p R)
    (hk : ∀ u, k.prio u < cfg.priorityCount) (hp : p < cfg.priorityCount) (u : TaskId) :
    k'.prio u < cfg.priorityCount := by
  rw [Kernel.prio, h.tasks]
  rcases eq_or_ne u t with rfl | hu
  · simpa using hp
  · simpa [hu] using hk u

theorem RanksOne.other {p : Nat} (h : RanksOne k k' t p R) (hu : u ≠ t) :
    k'.tasks u = k.tasks u := by
  rw [h.tasks, Function.update_of_ne hu]

/-- Ranking reads the slot states and periods only. -/
theorem rmsRank_congr (h : ∀ u, (k'.tasks u).slotState = (k.tasks u).slotState ∧
    (k'.tasks u).period = (k.tasks u).period) :
    rmsRank cfg k' newTask t = rmsRank cfg k newTask t := by
  unfold rmsRank
  congr 1
  apply List.countP_congr
  intro j _
  rw [decide_eq_true_eq, decide_eq_true_eq]
  simp only [RmsIncluded, h]

theorem rmsIncluded_congr (h : ∀ u, (k'.tasks u).slotState = (k.tasks u).slotState ∧
    (k'.tasks u).period = (k.tasks u).period) :
    RmsIncluded k' newTask t ↔ RmsIncluded k newTask t := by
  simp only [RmsIncluded, h]

theorem RanksOne.same {p : Nat} (h : RanksOne k k' t p R) (u : TaskId) :
    (k'.tasks u).slotState = (k.tasks u).slotState ∧ (k'.tasks u).period = (k.tasks u).period := by
  rcases eq_or_ne u t with rfl | hu
  · simp [h.tasks]
  · rw [h.other hu]
    exact ⟨rfl, rfl⟩

theorem Kernel.InOrder.moved {p : Nat} (h : k.InOrder)
    (hready : ReadyOk cfg k.readySet k.edfReady k.prio R) (h₁ : RanksOne k k₁ (.slot i) p R)
    (hlast : ∀ u ∈ k.readySet p, u ≠ .slot i → (k.tasks u).period = (k.tasks (.slot i)).period →
      k.prio (.slot i) ≠ p → u.Precedes (.slot i)) : k₁.InOrder := by
  intro q
  have hperiod : ∀ u, (k₁.tasks u).period = (k.tasks u).period := fun u => (h₁.same u).2
  simp only [hperiod]
  rcases h₁.readySet with hsame | ⟨-, hne, hmoved⟩
  · rw [hsame]
    exact h q
  · have herase : ∀ q, ((k.readySet q).erase (.slot i)).Pairwise fun a b =>
        (k.tasks a).period = (k.tasks b).period → a.Precedes b := fun q =>
      (h q).sublist List.erase_sublist
    rw [hmoved, movedTo]
    rcases eq_or_ne q p with rfl | hq
    · rw [Function.update_self]
      refine List.pairwise_append.mpr ⟨herase q, List.pairwise_singleton _ _, fun u hu v hv => ?_⟩
      obtain rfl : v = .slot i := by simpa using hv
      intro hper
      rcases eq_or_ne u (.slot i) with rfl | hui
      · exact absurd hu (hready.nodup q).not_mem_erase
      · exact hlast u (List.mem_of_mem_erase hu) hui hper hne
    · rw [Function.update_of_ne hq]
      exact herase q

/-- The first slot of the rest of the loop has been ranked. -/
theorem Orderly.rankOne {p : Nat} (h : Orderly k R (i :: l)) (hl : (i :: l).Pairwise (· < ·))
    (hready : ReadyOk cfg k.readySet k.edfReady k.prio R) (h₁ : RanksOne k k₁ (.slot i) p R) :
    Orderly k₁ R l := by
  have hfirst := (List.pairwise_cons.mp hl).1
  have hperiod : ∀ u, (k₁.tasks u).period = (k.tasks u).period := fun u => (h₁.same u).2
  have hprio : ∀ j, j ≠ i → k₁.prio (.slot j) = k.prio (.slot j) := by
    intro j hj
    rw [Kernel.prio, h₁.other (by simpa using hj)]
  constructor
  · refine h.inOrder.moved hready h₁ fun u hu hui hper hne => ?_
    obtain ⟨-, hr, hp⟩ := (hready.mem p u).mp hu
    cases u with
    | slot j =>
      rcases h.together i (by simp) j hr hper with ⟨heq, -⟩ | hlt
      · exact absurd (heq.symm.trans hp) hne
      · exact hlt
    | idle => exact trivial
    | timerService => exact trivial
  · intro i' hi' j hr hper
    rw [hperiod, hperiod] at hper
    have hlt : i < i' := hfirst i' hi'
    rcases h.together i' (by simp [hi']) j hr hper with ⟨heq, hj⟩ | hlt'
    · obtain rfl | hj := List.mem_cons.mp hj
      · exact .inr hlt
      · have hji : j ≠ i := (hfirst j hj).ne'
        rw [hprio j hji, hprio i' hlt.ne']
        exact .inl ⟨heq, hj⟩
    · exact .inr hlt'

/-! ## The loop -/

theorem Ranks.nil (k : Kernel) : Ranks cfg k k newTask R [] :=
  ⟨rfl, fun _ => rfl, fun i hi => by simp at hi, fun _ _ => rfl, fun ho => ho.inOrder⟩

theorem Ranks.skip (hi : ¬ RmsIncluded k newTask (.slot i))
    (hr : R (.slot i) → RmsIncluded k newTask (.slot i)) (h : Ranks cfg k k' newTask R l) :
    Ranks cfg k k' newTask R (i :: l) := by
  refine ⟨h.frame, h.task, fun j hj hinc => ?_,
    fun u hu => h.others u fun j hj => hu j (by simp [hj]),
    fun ho => h.ordered ⟨ho.inOrder, fun i' hi' j hrj hper => ?_⟩⟩
  · obtain rfl | hj := List.mem_cons.mp hj
    · exact absurd hinc hi
    · exact h.ranked j hj hinc
  · rcases ho.together i' (by simp [hi']) j hrj hper with ⟨heq, hj⟩ | hlt
    · obtain rfl | hj := List.mem_cons.mp hj
      · exact absurd (hr hrj) hi
      · exact .inl ⟨heq, hj⟩
    · exact .inr hlt

theorem Ranks.cons (hi : RmsIncluded k newTask (.slot i)) (hl : (i :: l).Pairwise (· < ·))
    (hready : ReadyOk cfg k.readySet k.edfReady k.prio R)
    (h₁ : RanksOne k k₁ (.slot i) (rmsRank cfg k newTask (.slot i)) R)
    (h : Ranks cfg k₁ k' newTask R l) : Ranks cfg k k' newTask R (i :: l) := by
  have hnot : i ∉ l := fun hin => absurd ((List.pairwise_cons.mp hl).1 i hin) (lt_irrefl i)
  have hsame := h₁.same
  have hlast : k'.tasks (.slot i) = k₁.tasks (.slot i) := by
    apply h.others
    rintro j hj hji
    obtain rfl : i = j := by simpa using hji
    exact absurd hj hnot
  refine ⟨?_, fun u => ?_, fun j hj hinc => ?_, fun u hu => ?_,
    fun ho => h.ordered (ho.rankOne hl hready h₁)⟩
  · rw [h.frame, h₁.frame]
  · rw [h.task u]
    rcases eq_or_ne u (.slot i) with rfl | hu
    · simp [h₁.tasks]
    · rw [h₁.other hu]
  · obtain rfl | hj := List.mem_cons.mp hj
    · rw [hlast, h₁.tasks]
      simp
    · have := h.ranked j hj ((rmsIncluded_congr hsame).mpr hinc)
      rwa [rmsRank_congr hsame] at this
  · have hne : u ≠ .slot i := by
      rintro rfl
      exact hu i (by simp) rfl hi
    rw [h.others u fun j hj huj hinc => hu j (by simp [hj]) huj ((rmsIncluded_congr hsame).mp hinc),
      h₁.other hne]

theorem wp_rmsAssignFrom {Q : Unit → Kernel → Prop} (hpol : cfg.policy = .rms)
    (h : ReadyOk cfg k.readySet k.edfReady k.prio R) (hrange : ∀ u, k.prio u < cfg.priorityCount)
    (hbound : ∀ i ∈ l, i < cfg.maxTasks)
    (hl : l.Pairwise (· < ·)) (hr : ∀ i, R (.slot i) → RmsIncluded k newTask (.slot i))
    (hQ : ∀ k', Ranks cfg k k' newTask R l → ReadyOk cfg k'.readySet k'.edfReady k'.prio R →
      Q () k') :
    wp (rmsAssignFrom cfg newTask l) Q E k := by
  induction l generalizing k Q with
  | nil => exact hQ k (.nil k) h
  | cons i l ih =>
    have hi : i < cfg.maxTasks := hbound i (by simp)
    have hrest : ∀ j ∈ l, j < cfg.maxTasks := fun j hj => hbound j (by simp [hj])
    have hl' := (List.pairwise_cons.mp hl).2
    simp only [rmsAssignFrom, wp_bind, wp_get, wp_ite]
    split <;> rename_i hinc
    · have hone := wp_rankOne (t := .slot i) (E := E)
        (Q := fun _ => wp (rmsAssignFrom cfg newTask l) Q E)
        hpol h (rmsRank_pos k).ne' (rmsRank_lt hpol hi) (hrange _) fun k₁ h₁ hready =>
          ih hready (h₁.prio_lt hrange (rmsRank_lt hpol hi)) hrest hl'
            (fun j hj => (rmsIncluded_congr h₁.same).mpr (hr j hj))
            fun k' hk' => hQ k' (.cons hinc hl h h₁ hk')
      simpa only [wp_bind, wp_modify, wp_pure] using hone
    · exact ih h hrange hrest hl' hr fun k' hk' => hQ k' (.skip hinc (hr i) hk')

/-! ## A new task -/

/-- A new task has been handed to the policy, which has ranked the tasks anew under RMS. -/
structure Inserted (cfg : Config) (k k' : Kernel) (n : Nat) (R : TaskId → Prop) : Prop where
  frame : k' = { k with
    tasks := k'.tasks
    readySet := k'.readySet
    edfReady := k'.edfReady
    policyReleaseSequence := k'.policyReleaseSequence }
  task : ∀ u, k'.tasks u = { (if u = .slot n then k.released (.slot n) else k.tasks u) with
    basePriority := (k'.tasks u).basePriority
    priority := (k'.tasks u).priority }
  priorities : ∀ u, (k'.tasks u).basePriority = (k.tasks u).basePriority ∧
      (k'.tasks u).priority = (k.tasks u).priority ∨
    cfg.policy = .rms ∧ RmsIncluded k (.slot n) u ∧ ∃ i < cfg.maxTasks, u = .slot i ∧
      (k'.tasks u).basePriority = rmsRank cfg k (.slot n) u ∧
      (k'.tasks u).priority = rmsRank cfg k (.slot n) u
  ready : ReadyOk cfg k'.readySet k'.edfReady k'.prio fun u => R u ∨ u = .slot n
  ranked : cfg.policy = .rms → ∀ i < cfg.maxTasks, RmsIncluded k (.slot n) (.slot i) →
    (k'.tasks (.slot i)).priority = rmsRank cfg k (.slot n) (.slot i)
  ordered : cfg.policy = .rms → Orderly k R (List.range cfg.maxTasks) →
    (∀ i, R (.slot i) → i < n) → k'.InOrder

/-- The new task is queued behind the tasks of its period. -/
theorem Kernel.InOrder.push {n p : Nat} (h : k.InOrder) (hn : ∀ i, .slot i ∈ k.readySet p → i < n) :
    (k.setReadyQueue p (k.readySet p ++ [.slot n])).InOrder := by
  intro q
  change (Function.update k.readySet p _ q).Pairwise _
  rcases eq_or_ne q p with rfl | hq
  · rw [Function.update_self]
    refine List.pairwise_append.mpr ⟨h q, List.pairwise_singleton _ _, fun u hu v hv _ => ?_⟩
    obtain rfl : v = .slot n := by simpa using hv
    cases u with
    | slot i => exact hn i hu
    | idle => exact trivial
    | timerService => exact trivial
  · rw [Function.update_of_ne hq]
    exact h q

theorem wp_policyRmsInsert {Q : Bool → Kernel → Prop} {n : Nat} (hpol : cfg.policy = .rms)
    (h : ReadyOk cfg k.readySet k.edfReady k.prio R) (hrange : ∀ u, k.prio u < cfg.priorityCount)
    (hn : n < cfg.maxTasks)
    (hnot : ¬ R (.slot n)) (hr : ∀ i, R (.slot i) → RmsIncluded k (.slot n) (.slot i))
    (hd : (k.tasks (.slot n)).state = .dormant) (hper : (k.tasks (.slot n)).period ≠ 0)
    (hQ : ∀ k₁, Ranks cfg k k₁ (.slot n) R (List.range cfg.maxTasks) →
      ReadyOk cfg k₁.readySet k₁.edfReady k₁.prio R →
      ReadyOk cfg (Function.update k₁.readySet (k₁.prio (.slot n))
        (k₁.readySet (k₁.prio (.slot n)) ++ [.slot n])) k₁.edfReady k₁.prio
        (fun u => R u ∨ u = .slot n) →
      Q true (k₁.setReadyQueue (k₁.prio (.slot n))
        (k₁.readySet (k₁.prio (.slot n)) ++ [.slot n]))) :
    wp (policyRmsInsert cfg (.slot n)) Q E k := by
  simp only [policyRmsInsert, policyRmsAssignPriorities, wp_bind, wp_get, wp_ite,
    if_pos (And.intro hd hper)]
  apply wp_rmsAssignFrom hpol h hrange (fun i hi => by simpa using hi) List.pairwise_lt_range hr
  intro k₁ hranks hready
  have hprio := (hranks.ranked n (by simpa using hn) (.inl rfl)).2
  apply wp_policyFpInsert hready (by simp [hpol]) hnot
  · rw [Kernel.prio, hprio]
    exact rmsRank_lt hpol hn
  · exact hQ k₁ hranks hready

theorem wp_policyInsert_ranked {Q : Bool → Kernel → Prop} {n : Nat} (hpol : cfg.policy = .rms)
    (h : ReadyOk cfg k.readySet k.edfReady k.prio R) (hrange : ∀ u, k.prio u < cfg.priorityCount)
    (hn : n < cfg.maxTasks)
    (hnot : ¬ R (.slot n)) (hr : ∀ i, R (.slot i) → RmsIncluded k (.slot n) (.slot i))
    (hd : (k.tasks (.slot n)).state = .dormant) (hper : (k.tasks (.slot n)).period ≠ 0)
    (hQ : ∀ k', Inserted cfg k k' n R → Q true k') :
    wp (policyInsert cfg (.slot n)) Q E k := by
  unfold policyInsert policyRecordRelease
  simp only [hpol]
  rw [wp_bind, wp_modify]
  set k₁ := k.requeue (.slot n) k.readySet k.edfReady (nextReleaseSequence k.policyReleaseSequence)
    (k.released (.slot n)) with hk₁
  change wp _ Q E k₁
  have htask₁ : ∀ u, k₁.tasks u = if u = .slot n then k.released (.slot n) else k.tasks u := by
    intro u
    simp [hk₁, Function.update_apply]
  have hprio₁ : k₁.prio = k.prio := prio_requeue (k.released_sameButRelease _)
  have hsame : ∀ u, (k₁.tasks u).slotState = (k.tasks u).slotState ∧
      (k₁.tasks u).period = (k.tasks u).period := by
    intro u
    rw [htask₁]
    split <;> simp_all [Kernel.released]
  have hbase : ∀ u, (k₁.tasks u).basePriority = (k.tasks u).basePriority := by
    intro u
    rw [htask₁]
    split <;> simp_all [Kernel.released]
  apply wp_policyRmsInsert (R := R) hpol (by rw [hprio₁]; exact h)
    (by rw [hprio₁]; exact hrange) hn hnot
    (fun i hi => (rmsIncluded_congr hsame).mpr (hr i hi))
  · simpa [htask₁, Kernel.released] using hd
  · simpa [htask₁, Kernel.released] using hper
  intro k₂ hranks hready₂ hready
  have hranked : ∀ i < cfg.maxTasks, RmsIncluded k (.slot n) (.slot i) →
      (k₂.tasks (.slot i)).basePriority = rmsRank cfg k (.slot n) (.slot i) ∧
      (k₂.tasks (.slot i)).priority = rmsRank cfg k (.slot n) (.slot i) := by
    intro i hi hinc
    have := hranks.ranked i (by simpa using hi) ((rmsIncluded_congr hsame).mpr hinc)
    rwa [rmsRank_congr hsame] at this
  apply hQ
  constructor
  · rw [Kernel.setReadyQueue, hranks.frame]
    rfl
  · intro u
    change k₂.tasks u = _
    rw [← htask₁ u]
    exact hranks.task u
  · intro u
    change (k₂.tasks u).basePriority = _ ∧ (k₂.tasks u).priority = _ ∨ _
    by_cases hu : ∃ i < cfg.maxTasks, u = .slot i ∧ RmsIncluded k (.slot n) u
    · obtain ⟨i, hi, rfl, hinc⟩ := hu
      exact .inr ⟨hpol, hinc, i, hi, rfl, hranked i hi hinc⟩
    · have hother : k₂.tasks u = k₁.tasks u := by
        refine hranks.others u fun i hi hui hinc => hu ⟨i, by simpa using hi, hui, ?_⟩
        exact (rmsIncluded_congr hsame).mp hinc
      rw [hother]
      exact .inl ⟨hbase u, congrFun hprio₁ u⟩
  · exact hready
  · exact fun _ i hi hinc => (hranked i hi hinc).2
  · intro _ ho hlast
    have ho₁ : Orderly k₁ R (List.range cfg.maxTasks) := by
      refine ⟨fun p => ?_, fun i hi j hrj hperiod => ?_⟩
      · simp only [(hsame _).2]
        exact ho.inOrder p
      · rw [(hsame _).2, (hsame _).2] at hperiod
        rw [hprio₁]
        exact ho.together i hi j hrj hperiod
    refine (hranks.ordered ho₁).push fun i hi => hlast i ?_
    exact ((hready₂.mem _ _).mp hi).2.1

theorem wp_policyInsert_new {Q : Bool → Kernel → Prop} {n : Nat}
    (h : ReadyOk cfg k.readySet k.edfReady k.prio R) (hn : n < cfg.maxTasks)
    (hnot : ¬ R (.slot n)) (hr : ∀ i, R (.slot i) → RmsIncluded k (.slot n) (.slot i))
    (hd : (k.tasks (.slot n)).state = .dormant)
    (hper : cfg.policy = .rms → (k.tasks (.slot n)).period ≠ 0)
    (hp : ∀ u, k.prio u < cfg.priorityCount) (hQ : ∀ k', Inserted cfg k k' n R → Q true k') :
    wp (policyInsert cfg (.slot n)) Q E k := by
  by_cases hpol : cfg.policy = .rms
  · exact wp_policyInsert_ranked hpol h hp hn hnot hr hd (hper hpol) hQ
  · apply wp_policyInsert_released h hnot (hp _) (fun hrms => absurd hrms hpol)
    intro rs er hready _
    have hprio : (k.requeue (.slot n) rs er (nextReleaseSequence k.policyReleaseSequence)
        (k.released (.slot n))).prio = k.prio := prio_requeue (k.released_sameButRelease _)
    apply hQ
    refine ⟨rfl, fun u => ?_, fun u => .inl ⟨?_, congrFun hprio u⟩, ?_,
      fun hrms => absurd hrms hpol, fun hrms => absurd hrms hpol⟩
    · rcases eq_or_ne u (.slot n) with rfl | hu <;> simp_all
    · rcases eq_or_ne u (.slot n) with rfl | hu <;> simp_all [Kernel.released]
    · rw [hprio]
      exact hready

end RtsKernel
