import RtsKernel.Invariant.Ready
import RtsKernel.Model.Queues

/-!
# The delay queue and the wait lists

`DelayOk` keeps every queued deadline in a half-range window ahead of a base tick, in which the
modular comparison is the comparison of distances. `WaitOk` says what the wait lists hold and
that they are ordered by priority.
-/

namespace RtsKernel

open Halting Prog

variable {cfg : Config} {k : Kernel} {t u : TaskId} {E : Fatal → Kernel → Prop}

/-! ## Delay queue -/

/-- A deadline ahead of the base by less than a half range. -/
def InWindow (base deadline : Tick) : Prop :=
  1 ≤ distance base deadline ∧ distance base deadline < 2 ^ 31

instance (base deadline : Tick) : Decidable (InWindow base deadline) :=
  inferInstanceAs (Decidable (_ ∧ _))

/-- The delay queue holds exactly the tasks of `D`, each once, in the order of their deadlines,
all of which are in the window ahead of `base`. -/
structure DelayOk (base : Tick) (queue : List TaskId) (wake : TaskId → Tick) (D : TaskId → Prop) :
    Prop where
  nodup : queue.Nodup
  mem : ∀ t, t ∈ queue ↔ D t
  window : ∀ t, D t → InWindow base (wake t)
  sorted : queue.Pairwise fun a b => distance base (wake a) ≤ distance base (wake b)

/-- The stored wake-up ticks. -/
abbrev Kernel.wake (k : Kernel) : TaskId → Tick := fun t => (k.tasks t).wait.wakeTick

section delay

variable {base : Tick} {queue : List TaskId} {wake wake' : TaskId → Tick} {D D' : TaskId → Prop}

namespace DelayOk

theorem congr (h : DelayOk base queue wake D) (hD : ∀ t, D' t ↔ D t)
    (hw : ∀ t, D t → wake' t = wake t) : DelayOk base queue wake' D' := by
  obtain rfl : D' = D := funext fun t => propext (hD t)
  refine ⟨h.nodup, h.mem, ?_, ?_⟩
  · intro t ht
    rw [hw t ht]
    exact h.window t ht
  · refine h.sorted.imp_of_mem fun {a b} ha hb hab => ?_
    rw [hw a ((h.mem a).mp ha), hw b ((h.mem b).mp hb)]
    exact hab

theorem remove (h : DelayOk base queue wake D) (t : TaskId) :
    DelayOk base (queue.erase t) wake (fun u => D u ∧ u ≠ t) := by
  refine ⟨h.nodup.erase t, ?_, fun u hu => h.window u hu.1, h.sorted.sublist List.erase_sublist⟩
  intro u
  rw [h.nodup.mem_erase_iff, h.mem]
  tauto

theorem before_iff (h : DelayOk base queue wake D) (hu : D u) (ht : InWindow base (wake t)) :
    Earlier wake t u ↔ distance base (wake t) < distance base (wake u) :=
  tickBefore_iff_of_window ht.2 (h.window u hu).2

theorem insert (h : DelayOk base queue wake D) (ht : ¬ D t) (hw : InWindow base (wake t)) :
    DelayOk base (queue.orderedInsert (Earlier wake) t) wake (fun u => D u ∨ u = t) := by
  refine ⟨Ordered.nodup_orderedInsert h.nodup (by rwa [h.mem]), ?_, ?_, ?_⟩
  · intro u
    rw [Ordered.mem_orderedInsert, h.mem]
    tauto
  · rintro u (hu | rfl)
    · exact h.window u hu
    · exact hw
  · refine Ordered.pairwise_orderedInsert h.sorted ?_ ?_ ?_
    · intro u hu hlt
      exact le_of_lt ((h.before_iff ((h.mem u).mp hu) hw).mp hlt)
    · intro u hu hge
      rw [h.before_iff ((h.mem u).mp hu) hw] at hge
      omega
    · intro u _ v _ htu huv
      exact le_trans htu huv

end DelayOk

theorem delayInsertInto_eq (hne : ∀ q ∈ queue, wake t - wake q ≠ tickHalfRange) :
    delayInsertInto wake t queue = some (queue.orderedInsert (Earlier wake) t) := by
  induction queue with
  | nil => rfl
  | cons q l ih =>
    have hq := hne q (by simp)
    rw [delayInsertInto, if_neg hq, List.orderedInsert_cons]
    by_cases hb : tickBefore (wake t) (wake q)
    · rw [if_pos hb, if_pos (show Earlier wake t q from hb)]
    · rw [if_neg hb, if_neg (show ¬ Earlier wake t q from hb),
        ih fun q' hq' => hne q' (by simp [hq'])]
      rfl

/-- Inside the window the insertion succeeds: its half-range rejection is never taken. -/
theorem wp_delayInsert {Q : Unit → Kernel → Prop} (h : DelayOk base k.delayQueue k.wake D)
    (ht : ¬ D t) (hw : InWindow base (k.wake t))
    (hQ : Q () { k with delayQueue := k.delayQueue.orderedInsert (Earlier k.wake) t }) :
    wp (delayInsert cfg t) Q E k := by
  have hm : t ∉ k.delayQueue := by rwa [h.mem]
  have hne : ∀ q ∈ k.delayQueue, k.wake t - k.wake q ≠ tickHalfRange := fun q hq =>
    sub_ne_halfRange_of_window hw.2 (h.window q ((h.mem q).mp hq)).2
  simp only [delayInsert, wp_bind, wp_get, wp_ite, hm, if_false, delayInsertInto_eq hne, wp_modify]
  exact hQ

theorem wp_delayRemove {Q : Unit → Kernel → Prop} (ht : t ∈ k.delayQueue)
    (hQ : Q () { k with delayQueue := k.delayQueue.erase t }) :
    wp (delayRemove cfg t) Q E k := by
  simp only [delayRemove, wp_bind, wp_get, wp_ite, ht, if_true, wp_modify]
  exact hQ

end delay

/-! ## Wait lists -/

/-- Every wait list holds exactly the tasks that name it as their owner, each once, in
non-increasing order of priority. The place of `moved`, when there is such a task, is not up to
date: its priority has just changed. -/
structure WaitOk (cfg : Config) (waiters : WaitObject → List TaskId) (prio : TaskId → Nat)
    (owner : TaskId → Option WaitObject) (moved : Option TaskId) : Prop where
  nodup : ∀ o, (waiters o).Nodup
  mem : ∀ o t, t ∈ waiters o ↔ owner t = some o
  sorted : ∀ o, (waiters o).Pairwise fun a b =>
    moved ≠ some a → moved ≠ some b → prio b ≤ prio a
  application : ∀ t, owner t ≠ none → t.IsApplication cfg

/-- The wait list each task is linked in. -/
abbrev Kernel.waitOwners (k : Kernel) : TaskId → Option WaitObject := fun t => (k.tasks t).waitOwner

@[simp] theorem waiters_setWaiters (k : Kernel) (o : WaitObject) (l : List TaskId) :
    (k.setWaiters o l).waiters = Function.update k.waiters o l := by
  funext o'
  cases o with
  | semaphore i =>
    cases o' with
    | semaphore j => by_cases hij : j = i <;> simp [Kernel.waiters, hij]
    | mutex m => simp [Kernel.waiters]
  | mutex m =>
    cases o' with
    | semaphore j => simp [Kernel.waiters]
    | mutex n => by_cases hmn : n = m <;> simp [Kernel.waiters, hmn]

section wait

variable {waiters : WaitObject → List TaskId} {prio prio' : TaskId → Nat}
  {owner owner' : TaskId → Option WaitObject} {moved : Option TaskId} {o : WaitObject}

theorem length_le_maxTasks {l : List TaskId} (hl : l.Nodup)
    (happ : ∀ t ∈ l, t.IsApplication cfg) : l.length ≤ cfg.maxTasks := by
  have hsub : l.toFinset ⊆ (Finset.range cfg.maxTasks).image TaskId.slot := by
    intro t ht
    have hslot := happ t (List.mem_toFinset.mp ht)
    cases t with
    | slot i => exact Finset.mem_image.mpr ⟨i, Finset.mem_range.mpr hslot, rfl⟩
    | idle => exact hslot.elim
    | timerService => exact hslot.elim
  calc l.length = l.toFinset.card := (List.toFinset_card_of_nodup hl).symm
    _ ≤ _ := Finset.card_le_card hsub
    _ ≤ (Finset.range cfg.maxTasks).card := Finset.card_image_le
    _ = cfg.maxTasks := Finset.card_range _

namespace WaitOk

theorem congr (h : WaitOk cfg waiters prio owner moved) (ho : ∀ t, owner' t = owner t)
    (hp : ∀ t, owner t ≠ none → prio' t = prio t) : WaitOk cfg waiters prio' owner' moved := by
  obtain rfl : owner' = owner := funext ho
  refine ⟨h.nodup, h.mem, fun o => ?_, h.application⟩
  refine (h.sorted o).imp_of_mem fun {a b} ha hb hab => ?_
  rw [hp a (by simp [(h.mem o a).mp ha]), hp b (by simp [(h.mem o b).mp hb])]
  exact hab

/-- Changing the priority of one task unsettles its place only. -/
theorem move (h : WaitOk cfg waiters prio owner none) (hp : ∀ u, u ≠ t → prio' u = prio u) :
    WaitOk cfg waiters prio' owner (some t) := by
  refine ⟨h.nodup, h.mem, fun o => ?_, h.application⟩
  refine (h.sorted o).imp fun {a b} hab ha hb => ?_
  rw [hp a (by simpa using Ne.symm ha), hp b (by simpa using Ne.symm hb)]
  exact hab (by simp) (by simp)

/-- A task that waits nowhere has no place that could be out of date. -/
theorem settle (h : WaitOk cfg waiters prio owner (some t)) (ht : owner t = none) :
    WaitOk cfg waiters prio owner none := by
  refine ⟨h.nodup, h.mem, fun o => ?_, h.application⟩
  refine (h.sorted o).imp_of_mem fun {a b} ha hb hab _ _ => ?_
  refine hab ?_ ?_ <;> rintro ⟨⟩
  · simp [(h.mem o t).mp ha] at ht
  · simp [(h.mem o t).mp hb] at ht

theorem remove (h : WaitOk cfg waiters prio owner moved) (ht : owner t = some o)
    (hm : moved = none ∨ moved = some t) :
    WaitOk cfg (Function.update waiters o ((waiters o).erase t)) prio
      (Function.update owner t none) none := by
  refine ⟨fun o' => ?_, fun o' u => ?_, fun o' => ?_, fun u hu => ?_⟩
  · by_cases ho : o' = o
    · subst ho
      rw [Function.update_self]
      exact (h.nodup o').erase t
    · rw [Function.update_of_ne ho]
      exact h.nodup o'
  · by_cases ho : o' = o
    · subst ho
      rw [Function.update_self, (h.nodup o').mem_erase_iff, h.mem]
      by_cases hu : u = t
      · simp [hu]
      · simp [hu]
    · rw [Function.update_of_ne ho, h.mem]
      by_cases hu : u = t
      · subst hu
        simp [ht, Ne.symm ho]
      · simp [hu]
  · have hnot : ∀ {a}, a ∈ Function.update waiters o ((waiters o).erase t) o' → moved ≠ some a := by
      intro a ha hma
      obtain hm | hm := hm
      · simp [hm] at hma
      · obtain rfl : t = a := by simpa [hm] using hma
        by_cases ho : o' = o
        · subst ho
          rw [Function.update_self] at ha
          exact (h.nodup o').not_mem_erase ha
        · rw [Function.update_of_ne ho, h.mem, ht] at ha
          exact ho (Option.some.inj ha).symm
    have hsub : (Function.update waiters o ((waiters o).erase t) o').Sublist (waiters o') := by
      by_cases ho : o' = o
      · subst ho
        rw [Function.update_self]
        exact List.erase_sublist
      · rw [Function.update_of_ne ho]
    exact ((h.sorted o').sublist hsub).imp_of_mem fun {a b} ha hb hab _ _ =>
      hab (hnot ha) (hnot hb)
  · by_cases hut : u = t
    · simp [hut] at hu
    · rw [Function.update_of_ne hut] at hu
      exact h.application u hu

theorem insert (h : WaitOk cfg waiters prio owner none) (ht : owner t = none)
    (happ : t.IsApplication cfg) :
    WaitOk cfg (Function.update waiters o ((waiters o).orderedInsert (Outranks prio) t)) prio
      (Function.update owner t (some o)) none := by
  have hnot : ∀ o', t ∉ waiters o' := fun o' hm => by simp [(h.mem o' t).mp hm] at ht
  refine ⟨fun o' => ?_, fun o' u => ?_, fun o' => ?_, fun u hu => ?_⟩
  · by_cases ho : o' = o
    · subst ho
      rw [Function.update_self]
      exact Ordered.nodup_orderedInsert (h.nodup o') (hnot o')
    · rw [Function.update_of_ne ho]
      exact h.nodup o'
  · by_cases ho : o' = o
    · subst ho
      rw [Function.update_self, Ordered.mem_orderedInsert, h.mem]
      by_cases hu : u = t <;> simp [hu]
    · rw [Function.update_of_ne ho, h.mem]
      by_cases hu : u = t
      · subst hu
        simp [ht, Ne.symm ho]
      · simp [hu]
  · by_cases ho : o' = o
    · subst ho
      rw [Function.update_self]
      have hsorted : (waiters o').Pairwise fun a b => prio b ≤ prio a :=
        (h.sorted o').imp fun hab => hab (by simp) (by simp)
      have hins : ((waiters o').orderedInsert (Outranks prio) t).Pairwise
          fun a b => prio b ≤ prio a := by
        refine Ordered.pairwise_orderedInsert hsorted ?_ ?_ ?_
        · exact fun u _ hlt => le_of_lt hlt
        · exact fun u _ hge => not_lt.mp hge
        · exact fun u _ v _ htu huv => le_trans huv htu
      exact hins.imp fun hab _ _ => hab
    · rw [Function.update_of_ne ho]
      exact h.sorted o'
  · by_cases hut : u = t
    · rw [hut]
      exact happ
    · rw [Function.update_of_ne hut] at hu
      exact h.application u hu

theorem validate (h : WaitOk cfg k.waiters k.prio k.waitOwners none) (o : WaitObject) :
    WaitObjectValidate cfg k o := by
  refine ⟨fun t ht => (h.mem o t).mp ht, ?_, ?_⟩
  · exact ((h.sorted o).imp fun hab => hab (by simp) (by simp)).isChain
  · exact length_le_maxTasks (h.nodup o) fun t ht =>
      h.application t (by simp [(h.mem o t).mp ht])

/-- There is room for one more application task in every list that it is not in. -/
theorem length_lt (h : WaitOk cfg waiters prio owner moved) (ht : owner t = none)
    (happ : t.IsApplication cfg) (o : WaitObject) : (waiters o).length < cfg.maxTasks := by
  have hnot : t ∉ waiters o := fun hm => by simp [(h.mem o t).mp hm] at ht
  have hle : (t :: waiters o).length ≤ cfg.maxTasks := by
    refine length_le_maxTasks (List.nodup_cons.mpr ⟨hnot, h.nodup o⟩) fun u hu => ?_
    obtain rfl | hu := List.mem_cons.mp hu
    · exact happ
    · exact h.application u (by simp [(h.mem o u).mp hu])
  simpa using hle

end WaitOk

@[simp] theorem waiters_updateTask (k : Kernel) (t : TaskId) (f : Tcb → Tcb) :
    (k.updateTask t f).waiters = k.waiters := rfl

@[simp] theorem waiters_relink (k : Kernel) (o : WaitObject) (l : List TaskId) (t : TaskId)
    (owner : Option WaitObject) :
    (k.relink o l t owner).waiters = Function.update k.waiters o l :=
  waiters_setWaiters k o l

theorem prio_relink (k : Kernel) (o : WaitObject) (l : List TaskId) (t : TaskId)
    (owner : Option WaitObject) : (k.relink o l t owner).prio = k.prio := by
  funext u
  by_cases hu : u = t <;> simp [Kernel.prio, hu]

theorem waitOwners_relink (k : Kernel) (o : WaitObject) (l : List TaskId) (t : TaskId)
    (owner : Option WaitObject) :
    (k.relink o l t owner).waitOwners = Function.update k.waitOwners t owner := by
  funext u
  by_cases hu : u = t <;> simp [Kernel.waitOwners, hu]

theorem wp_waitObjectInsert {Q : Unit → Kernel → Prop}
    (h : WaitOk cfg k.waiters k.prio k.waitOwners none) (ht : k.waitOwners t = none)
    (happ : t.IsApplication cfg)
    (hQ : Q () (k.relink o ((k.waiters o).orderedInsert (Outranks k.prio) t) t (some o))) :
    wp (waitObjectInsert cfg o t) Q E k := by
  have hval := h.validate o
  have hlen := h.length_lt ht happ o
  have hins : WaitOk cfg
      (k.relink o ((k.waiters o).orderedInsert (Outranks k.prio) t) t (some o)).waiters
      (k.relink o ((k.waiters o).orderedInsert (Outranks k.prio) t) t (some o)).prio
      (k.relink o ((k.waiters o).orderedInsert (Outranks k.prio) t) t
          (some o)).waitOwners none := by
    rw [waiters_relink, prio_relink, waitOwners_relink]
    exact h.insert ht happ
  have hcond : ¬ (¬ WaitObjectValidate cfg k o ∨ (k.tasks t).waitOwner ≠ none ∨
      cfg.maxTasks ≤ (k.waiters o).length) := by
    rintro (hv | ho | hl)
    · exact hv hval
    · exact ho ht
    · omega
  have ht' : (k.tasks t).waitOwner = none := ht
  unfold waitObjectInsert
  rw [wp_bind, wp_get, wp_bind, wp_rtsAssert_of hval, wp_bind, wp_rtsAssert_of ht', wp_bind,
    wp_rtsAssert_of hlen, wp_ite, if_neg hcond, wp_bind, wp_modify, wp_bind, wp_get,
    wp_fatalUnless_of (hins.validate o)]
  exact hQ

theorem wp_waitObjectRemove {Q : Unit → Kernel → Prop}
    (h : WaitOk cfg k.waiters k.prio k.waitOwners moved) (ht : k.waitOwners t = some o)
    (hm : moved = none ∨ moved = some t)
    (hQ : Q () (k.relink o ((k.waiters o).erase t) t none)) :
    wp (waitObjectRemove cfg o t) Q E k := by
  have hrem : WaitOk cfg (k.relink o ((k.waiters o).erase t) t none).waiters
      (k.relink o ((k.waiters o).erase t) t none).prio
      (k.relink o ((k.waiters o).erase t) t none).waitOwners none := by
    rw [waiters_relink, prio_relink, waitOwners_relink]
    exact h.remove ht hm
  have ht' : (k.tasks t).waitOwner = some o := ht
  have hpos : 0 < (k.waiters o).length :=
    List.length_pos_of_mem ((h.mem o t).mpr ht)
  unfold waitObjectRemove
  rw [wp_bind, wp_get, wp_bind, wp_rtsAssert_of ht', wp_ite, if_neg (by simp [ht']), wp_bind,
    wp_fatalUnless_of hpos, wp_bind, wp_modify, wp_bind, wp_get,
    wp_fatalUnless_of (hrem.validate o)]
  exact hQ

end wait

end RtsKernel
