import RtsKernel.Invariant.Ready
import RtsKernel.Library.DoublyLinked
import RtsKernel.Model.Mutex

/-!
# Owned-mutex lists

Every task owns a doubly linked list of mutexes. `Owned` says which one, that its links are in
order and that its length is the stored count; linking and unlinking are specified against it.
-/

namespace RtsKernel

open Halting Prog DoublyLinked

/-- The owned lists of all tasks: `owned t` is linked from the head to the tail pointer of `t`,
has the stored length, and holds the mutexes whose owner is `t`. -/
structure Owned (cfg : Config) (mutexes : Nat → Mutex) (tasks : TaskId → Tcb)
    (owned : TaskId → List Nat) : Prop where
  isList : ∀ t, IsList (fun m => (mutexes m).ownedPrevious) (fun m => (mutexes m).ownedNext)
    (tasks t).ownedMutexHead (tasks t).ownedMutexTail (owned t)
  length : ∀ t, (owned t).length = (tasks t).ownedMutexCount
  bound : ∀ t, (tasks t).ownedMutexCount ≤ cfg.maxMutexesPerTask
  mem : ∀ t m, m ∈ owned t ↔ (mutexes m).owner = some t
  free : ∀ m, (mutexes m).owner = none →
    (mutexes m).ownedPrevious = none ∧ (mutexes m).ownedNext = none

variable {cfg : Config} {k k' : Kernel} {t u : TaskId} {m n : Nat}
  {mutexes mutexes' : Nat → Mutex} {tasks tasks' : TaskId → Tcb} {owned : TaskId → List Nat}
  {E : Fatal → Kernel → Prop}

theorem Owned.congr (h : Owned cfg mutexes tasks owned)
    (hm : ∀ m, (mutexes' m).owner = (mutexes m).owner ∧
      (mutexes' m).ownedPrevious = (mutexes m).ownedPrevious ∧
      (mutexes' m).ownedNext = (mutexes m).ownedNext)
    (ht : ∀ t, (tasks' t).ownedMutexHead = (tasks t).ownedMutexHead ∧
      (tasks' t).ownedMutexTail = (tasks t).ownedMutexTail ∧
      (tasks' t).ownedMutexCount = (tasks t).ownedMutexCount) :
    Owned cfg mutexes' tasks' owned := by
  refine ⟨fun t => ?_, fun t => ?_, fun t => ?_, fun t m => ?_, fun m hnone => ?_⟩
  · rw [(ht t).1, (ht t).2.1]
    exact (h.isList t).congr (fun m _ => (hm m).2.1) fun m _ => (hm m).2.2
  · rw [(ht t).2.2]
    exact h.length t
  · rw [(ht t).2.2]
    exact h.bound t
  · rw [(hm m).1]
    exact h.mem t m
  · rw [(hm m).2.1, (hm m).2.2]
    exact h.free m ((hm m).1 ▸ hnone)

/-- `k'` differs from `k` in the owner of one mutex and in the links of the owned lists. -/
structure OwnerChanged (k k' : Kernel) (m : Nat) (owner : Option TaskId) : Prop where
  rest : k' = { k with mutexes := k'.mutexes, tasks := k'.tasks }
  mutexes : ∀ n, k'.mutexes n = { k.mutexes n with
    owner := if n = m then owner else (k.mutexes n).owner
    ownedPrevious := (k'.mutexes n).ownedPrevious
    ownedNext := (k'.mutexes n).ownedNext }
  tasks : ∀ t, k'.tasks t = { k.tasks t with
    ownedMutexHead := (k'.tasks t).ownedMutexHead
    ownedMutexTail := (k'.tasks t).ownedMutexTail
    ownedMutexCount := (k'.tasks t).ownedMutexCount }

/-! ## Linking -/

theorem Owned.link (h : Owned cfg mutexes tasks owned) (hm : (mutexes m).owner = none)
    (hcount : (tasks t).ownedMutexCount < cfg.maxMutexesPerTask)
    (howner : ∀ n, (mutexes' n).owner = if n = m then some t else (mutexes n).owner)
    (hprev : ∀ n, (mutexes' n).ownedPrevious =
      if n = m then (tasks t).ownedMutexTail else (mutexes n).ownedPrevious)
    (hnext : ∀ n, (mutexes' n).ownedNext =
      if (tasks t).ownedMutexTail = some n then some m
      else if n = m then none else (mutexes n).ownedNext)
    (hothers : ∀ u, u ≠ t → (tasks' u).ownedMutexHead = (tasks u).ownedMutexHead ∧
      (tasks' u).ownedMutexTail = (tasks u).ownedMutexTail ∧
      (tasks' u).ownedMutexCount = (tasks u).ownedMutexCount)
    (hhead : (tasks' t).ownedMutexHead = (tasks t).ownedMutexHead.or (some m))
    (htail : (tasks' t).ownedMutexTail = some m)
    (hcount' : (tasks' t).ownedMutexCount = (tasks t).ownedMutexCount + 1) :
    Owned cfg mutexes' tasks' (Function.update owned t (owned t ++ [m])) := by
  have hnotin : ∀ u, m ∉ owned u := fun u hin => by simp [(h.mem u m).mp hin] at hm
  have hne : ∀ u n, n ∈ owned u → n ≠ m := by
    rintro u n hn rfl
    exact hnotin u hn
  have htailin : ∀ n, (tasks t).ownedMutexTail = some n → n ∈ owned t := by
    intro n hn
    rw [(h.isList t).tail_eq] at hn
    exact List.mem_of_getLast? hn
  have htailm : (tasks t).ownedMutexTail ≠ some m := fun hc => hnotin t (htailin m hc)
  refine ⟨fun u => ?_, fun u => ?_, fun u => ?_, fun u n => ?_, fun n hn => ?_⟩
  · by_cases hut : u = t
    · subst hut
      rw [Function.update_self, hhead, htail]
      refine (h.isList u).push (hnotin u) ?_ ?_ ?_ ?_
      · rw [hprev m, if_pos rfl]
      · rw [hnext m, if_neg htailm, if_pos rfl]
      · intro n hn
        rw [hprev n, if_neg (hne u n hn)]
      · intro n hn
        rw [hnext n]
        by_cases hlast : (tasks u).ownedMutexTail = some n
        · rw [if_pos hlast, if_pos hlast]
        · rw [if_neg hlast, if_neg hlast, if_neg (hne u n hn)]
    · rw [Function.update_of_ne hut, (hothers u hut).1, (hothers u hut).2.1]
      refine (h.isList u).congr ?_ ?_
      · intro n hn
        rw [hprev n, if_neg (hne u n hn)]
      · intro n hn
        rw [hnext n, if_neg, if_neg (hne u n hn)]
        intro hlast
        have hnt := (h.mem t n).mp (htailin n hlast)
        rw [(h.mem u n).mp hn] at hnt
        exact hut (Option.some.inj hnt)
  · by_cases hut : u = t
    · subst hut
      rw [Function.update_self, hcount', List.length_append, h.length]
      rfl
    · rw [Function.update_of_ne hut, (hothers u hut).2.2]
      exact h.length u
  · by_cases hut : u = t
    · subst hut
      omega
    · rw [(hothers u hut).2.2]
      exact h.bound u
  · rw [howner n]
    by_cases hnm : n = m
    · subst hnm
      by_cases hut : u = t
      · simp [hut]
      · simp [hut, hnotin u, Ne.symm hut]
    · by_cases hut : u = t
      · subst hut
        simp [hnm, h.mem]
      · simp [hnm, hut, h.mem]
  · have hnm : n ≠ m := by
      rintro rfl
      simp [howner] at hn
    rw [howner n, if_neg hnm] at hn
    have hlast : (tasks t).ownedMutexTail ≠ some n := fun hc => by
      simp [(h.mem t n).mp (htailin n hc)] at hn
    rw [hprev n, hnext n, if_neg hnm, if_neg hlast, if_neg hnm]
    exact h.free n hn

theorem wp_mutexOwnerLink {Q : Unit → Kernel → Prop} (h : Owned cfg k.mutexes k.tasks owned)
    (hm : (k.mutexes m).owner = none)
    (hcount : (k.tasks t).ownedMutexCount < cfg.maxMutexesPerTask)
    (hQ : ∀ k', OwnerChanged k k' m (some t) →
      Owned cfg k'.mutexes k'.tasks (Function.update owned t (owned t ++ [m])) → Q () k') :
    wp (mutexOwnerLink cfg m t) Q E k := by
  have hfree := h.free m hm
  have hempty : (k.tasks t).ownedMutexTail = none → (k.tasks t).ownedMutexHead = none := by
    intro htail
    rw [(h.isList t).tail_eq, List.getLast?_eq_none_iff] at htail
    rw [(h.isList t).head_eq, htail]
    rfl
  have hfull : ∀ last, (k.tasks t).ownedMutexTail = some last →
      ∃ first, (k.tasks t).ownedMutexHead = some first := by
    intro last htail
    rw [(h.isList t).head_eq, ← Option.isSome_iff_exists, List.isSome_head?]
    rw [(h.isList t).tail_eq] at htail
    exact List.ne_nil_of_mem (List.mem_of_getLast? htail)
  have htailm : (k.tasks t).ownedMutexTail ≠ some m := by
    intro hc
    rw [(h.isList t).tail_eq] at hc
    simp [(h.mem t m).mp (List.mem_of_getLast? hc)] at hm
  unfold mutexOwnerLink
  rw [wp_bind, wp_get, wp_bind, wp_fatalUnless_of hm, wp_bind, wp_fatalUnless_of hfree, wp_bind,
    wp_fatalUnless_of hcount, wp_bind, wp_modify]
  cases htail : (k.tasks t).ownedMutexTail with
  | none =>
    simp only [wp_bind, wp_modify]
    refine hQ _ ⟨rfl, ?_, ?_⟩ (h.link hm hcount ?_ ?_ ?_ ?_ ?_ ?_ ?_)
    · intro n
      by_cases hnm : n = m <;> simp [hnm]
    · intro u
      by_cases hut : u = t <;> simp [hut]
    · intro n
      by_cases hnm : n = m <;> simp [hnm]
    · intro n
      by_cases hnm : n = m <;> simp [hnm, htail]
    · intro n
      by_cases hnm : n = m <;> simp [hnm, htail]
    · intro u hut
      simp [hut]
    · simp [hempty htail]
    · simp
    · simp
  | some last =>
    obtain ⟨first, hfirst⟩ := hfull last htail
    have hlast : last ≠ m := by
      rintro rfl
      exact htailm htail
    simp only [wp_bind, wp_modify]
    refine hQ _ ⟨rfl, ?_, ?_⟩ (h.link hm hcount ?_ ?_ ?_ ?_ ?_ ?_ ?_)
    · intro n
      by_cases hnm : n = m
      · simp [hnm, Ne.symm hlast]
      · by_cases hnl : n = last <;> simp [hnm, hnl, hlast]
    · intro u
      by_cases hut : u = t <;> simp [hut]
    · intro n
      by_cases hnm : n = m
      · simp [hnm, Ne.symm hlast]
      · by_cases hnl : n = last <;> simp [hnm, hnl, hlast]
    · intro n
      by_cases hnm : n = m
      · simp [hnm, Ne.symm hlast, htail]
      · by_cases hnl : n = last <;> simp [hnm, hnl, hlast]
    · intro n
      by_cases hnm : n = m
      · simp [hnm, hlast, Ne.symm hlast, htail]
      · by_cases hnl : n = last
        · simp [hnl, htail]
        · simp [hnm, hnl, Ne.symm hnl, htail]
    · intro u hut
      simp [hut]
    · simp [hfirst]
    · simp
    · simp

/-! ## Unlinking -/

theorem Owned.unlink (h : Owned cfg mutexes tasks owned) (hm : (mutexes m).owner = some t)
    (howner : ∀ n, (mutexes' n).owner = if n = m then none else (mutexes n).owner)
    (hprev : ∀ n, (mutexes' n).ownedPrevious =
      if n = m then none else if (mutexes m).ownedNext = some n then (mutexes m).ownedPrevious
      else (mutexes n).ownedPrevious)
    (hnext : ∀ n, (mutexes' n).ownedNext =
      if n = m then none else if (mutexes m).ownedPrevious = some n then (mutexes m).ownedNext
      else (mutexes n).ownedNext)
    (hothers : ∀ u, u ≠ t → (tasks' u).ownedMutexHead = (tasks u).ownedMutexHead ∧
      (tasks' u).ownedMutexTail = (tasks u).ownedMutexTail ∧
      (tasks' u).ownedMutexCount = (tasks u).ownedMutexCount)
    (hhead : (tasks' t).ownedMutexHead =
      if (mutexes m).ownedPrevious = none then (mutexes m).ownedNext else (tasks t).ownedMutexHead)
    (htail : (tasks' t).ownedMutexTail =
      if (mutexes m).ownedNext = none then (mutexes m).ownedPrevious else (tasks t).ownedMutexTail)
    (hcount : (tasks' t).ownedMutexCount = (tasks t).ownedMutexCount - 1) :
    Owned cfg mutexes' tasks' (Function.update owned t ((owned t).erase m)) := by
  have hnodup := (h.isList t).nodup
  obtain ⟨l₁, l₂, hl⟩ := List.append_of_mem ((h.mem t m).mpr hm)
  have hnotin : m ∉ l₁ ++ l₂ := by
    rw [hl] at hnodup
    exact (List.nodup_middle.mp hnodup).notMem
  have herase : (owned t).erase m = l₁ ++ l₂ := by
    rw [hl, List.erase_append_right _ fun hc => hnotin (by simp [hc]), List.erase_cons_head]
  have hneighbour : ∀ n, (mutexes m).ownedPrevious = some n ∨ (mutexes m).ownedNext = some n →
      n ∈ owned t := by
    have hlist := h.isList t
    rw [hl] at hlist ⊢
    obtain ⟨hp, hn⟩ := hlist.neighbours
    rintro n (hc | hc)
    · have := List.mem_of_getLast? (hp ▸ hc)
      simp [this]
    · have := List.mem_of_head? (hn ▸ hc)
      simp [this]
  have hother : ∀ u n, u ≠ t → n ∈ owned u → n ≠ m ∧ (mutexes m).ownedPrevious ≠ some n ∧
      (mutexes m).ownedNext ≠ some n := by
    intro u n hut hn
    have hnot : n ∉ owned t := by
      intro hc
      have hnt := (h.mem t n).mp hc
      rw [(h.mem u n).mp hn] at hnt
      exact hut (Option.some.inj hnt)
    refine ⟨?_, fun hc => hnot (hneighbour n (.inl hc)), fun hc => hnot (hneighbour n (.inr hc))⟩
    rintro rfl
    exact hnot ((h.mem t n).mpr hm)
  refine ⟨fun u => ?_, fun u => ?_, fun u => ?_, fun u n => ?_, fun n hn => ?_⟩
  · by_cases hut : u = t
    · subst hut
      rw [Function.update_self, herase, hhead, htail]
      have hlist := h.isList u
      rw [hl] at hlist
      have hne : ∀ n ∈ l₁ ++ l₂, n ≠ m := by
        rintro n hn rfl
        exact hnotin hn
      refine hlist.unlink ?_ ?_
      · intro n hn
        rw [hprev n, if_neg (hne n hn)]
      · intro n hn
        rw [hnext n, if_neg (hne n hn)]
    · rw [Function.update_of_ne hut, (hothers u hut).1, (hothers u hut).2.1]
      refine (h.isList u).congr ?_ ?_
      · intro n hn
        obtain ⟨hnm, -, hnn⟩ := hother u n hut hn
        rw [hprev n, if_neg hnm, if_neg hnn]
      · intro n hn
        obtain ⟨hnm, hnp, -⟩ := hother u n hut hn
        rw [hnext n, if_neg hnm, if_neg hnp]
  · by_cases hut : u = t
    · subst hut
      rw [Function.update_self, hcount, List.length_erase_of_mem ((h.mem u m).mpr hm), h.length]
    · rw [Function.update_of_ne hut, (hothers u hut).2.2]
      exact h.length u
  · by_cases hut : u = t
    · subst hut
      have := h.bound u
      omega
    · rw [(hothers u hut).2.2]
      exact h.bound u
  · rw [howner n]
    by_cases hut : u = t
    · subst hut
      rw [Function.update_self, hnodup.mem_erase_iff, h.mem]
      by_cases hnm : n = m <;> simp [hnm]
    · rw [Function.update_of_ne hut, h.mem]
      by_cases hnm : n = m
      · subst hnm
        simp [hm, Ne.symm hut]
      · simp [hnm]
  · rw [hprev n, hnext n]
    by_cases hnm : n = m
    · simp [hnm]
    · rw [howner n, if_neg hnm] at hn
      have hnot : n ∉ owned t := fun hc => by simp [(h.mem t n).mp hc] at hn
      rw [if_neg hnm, if_neg hnm, if_neg fun hc => hnot (hneighbour n (.inr hc)),
        if_neg fun hc => hnot (hneighbour n (.inl hc))]
      exact h.free n hn

theorem wp_mutexOwnerUnlink {Q : Unit → Kernel → Prop} (h : Owned cfg k.mutexes k.tasks owned)
    (hm : (k.mutexes m).owner = some t)
    (hQ : ∀ k', OwnerChanged k k' m none →
      Owned cfg k'.mutexes k'.tasks (Function.update owned t ((owned t).erase m)) → Q () k') :
    wp (mutexOwnerUnlink m) Q E k := by
  have hin : m ∈ owned t := (h.mem t m).mpr hm
  have hpos : 0 < (k.tasks t).ownedMutexCount := by
    rw [← h.length]
    exact List.length_pos_of_mem hin
  have hlist := h.isList t
  have hnodup := hlist.nodup
  obtain ⟨l₁, l₂, hl⟩ := List.append_of_mem hin
  rw [hl] at hlist hnodup
  obtain ⟨hp, hn⟩ := hlist.neighbours
  rw [List.nodup_append] at hnodup
  obtain ⟨-, hnodup₂, hdisj⟩ := hnodup
  have hprev_ne : ∀ p, (k.mutexes m).ownedPrevious = some p → p ≠ m := by
    intro p hc
    exact hdisj p (List.mem_of_getLast? (hp ▸ hc)) m (by simp)
  have hnext_ne : ∀ n, (k.mutexes m).ownedNext = some n → n ≠ m := by
    rintro n hc rfl
    exact (List.nodup_cons.mp hnodup₂).1 (List.mem_of_head? (hn ▸ hc))
  have hdiff : ∀ p n, (k.mutexes m).ownedPrevious = some p → (k.mutexes m).ownedNext = some n →
      p ≠ n := by
    intro p n hcp hcn
    exact hdisj p (List.mem_of_getLast? (hp ▸ hcp)) n
      (List.mem_cons_of_mem _ (List.mem_of_head? (hn ▸ hcn)))
  have hhead : (k.mutexes m).ownedPrevious = none → (k.tasks t).ownedMutexHead = some m := by
    intro hc
    exact (hlist.head_or_prev (a := m) (by simp)).resolve_right (not_not.mpr hc)
  have htail : (k.mutexes m).ownedNext = none → (k.tasks t).ownedMutexTail = some m := by
    intro hc
    have hc' := hn.symm.trans hc
    rw [List.head?_eq_none_iff] at hc'
    rw [hlist.tail_eq, hc']
    simp
  unfold mutexOwnerUnlink
  rw [wp_bind, wp_get]
  simp only [hm]
  cases hcp : (k.mutexes m).ownedPrevious with
  | none =>
    cases hcn : (k.mutexes m).ownedNext with
    | none =>
      simp only [wp_bind, wp_modify, wp_fatalUnless_of (hhead hcp), wp_fatalUnless_of (htail hcn),
        wp_fatalUnless_of hpos]
      refine hQ _ ⟨rfl, ?_, ?_⟩ (h.unlink hm ?_ ?_ ?_ ?_ ?_ ?_ ?_)
      · intro n
        by_cases hnm : n = m <;> simp [hnm]
      · intro u
        by_cases hut : u = t <;> simp [hut]
      · intro n
        by_cases hnm : n = m <;> simp [hnm]
      · intro n
        by_cases hnm : n = m <;> simp [hnm, hcn]
      · intro n
        by_cases hnm : n = m <;> simp [hnm, hcp]
      · intro u hut
        simp [hut]
      · simp [hcp]
      · simp [hcn]
      · simp
    | some next =>
      have hne := hnext_ne next hcn
      simp only [wp_bind, wp_modify, wp_fatalUnless_of (hhead hcp), wp_fatalUnless_of hpos]
      refine hQ _ ⟨rfl, ?_, ?_⟩ (h.unlink hm ?_ ?_ ?_ ?_ ?_ ?_ ?_)
      · intro n
        by_cases hnm : n = m
        · simp [hnm, Ne.symm hne]
        · by_cases hnn : n = next <;> simp [hnm, hnn, hne]
      · intro u
        by_cases hut : u = t <;> simp [hut]
      · intro n
        by_cases hnm : n = m
        · simp [hnm]
        · by_cases hnn : n = next <;> simp [hnm, hnn, hne]
      · intro n
        by_cases hnm : n = m
        · simp [hnm]
        · by_cases hnn : n = next
          · simp [hnn, hne, hcn]
          · simp [hnm, hnn, hcn, Ne.symm hnn]
      · intro n
        by_cases hnm : n = m
        · simp [hnm]
        · by_cases hnn : n = next <;> simp [hnm, hnn, hne, hcp]
      · intro u hut
        simp [hut]
      · simp [hcp]
      · simp [hcn]
      · simp
  | some prev =>
    have hpm := hprev_ne prev hcp
    cases hcn : (k.mutexes m).ownedNext with
    | none =>
      simp only [wp_bind, wp_modify, wp_fatalUnless_of (htail hcn), wp_fatalUnless_of hpos]
      refine hQ _ ⟨rfl, ?_, ?_⟩ (h.unlink hm ?_ ?_ ?_ ?_ ?_ ?_ ?_)
      · intro n
        by_cases hnm : n = m
        · simp [hnm, Ne.symm hpm]
        · by_cases hnp : n = prev <;> simp [hnm, hnp, hpm]
      · intro u
        by_cases hut : u = t <;> simp [hut]
      · intro n
        by_cases hnm : n = m
        · simp [hnm]
        · by_cases hnp : n = prev <;> simp [hnm, hnp, hpm]
      · intro n
        by_cases hnm : n = m
        · simp [hnm]
        · by_cases hnp : n = prev <;> simp [hnm, hnp, hpm, hcn]
      · intro n
        by_cases hnm : n = m
        · simp [hnm]
        · by_cases hnp : n = prev
          · simp [hnp, hpm, hcp]
          · simp [hnm, hnp, hcp, Ne.symm hnp]
      · intro u hut
        simp [hut]
      · simp [hcp]
      · simp [hcn, Ne.symm hpm]
      · simp
    | some next =>
      have hne := hnext_ne next hcn
      have hpn := hdiff prev next hcp hcn
      simp only [wp_bind, wp_modify, wp_fatalUnless_of hpos]
      refine hQ _ ⟨rfl, ?_, ?_⟩ (h.unlink hm ?_ ?_ ?_ ?_ ?_ ?_ ?_)
      · intro n
        by_cases hnm : n = m
        · simp [hnm, Ne.symm hpm, Ne.symm hne]
        · by_cases hnp : n = prev
          · simp [hnp, hpm, hpn]
          · by_cases hnn : n = next <;> simp [hnm, hnp, hnn, hne, Ne.symm hpn]
      · intro u
        by_cases hut : u = t <;> simp [hut]
      · intro n
        by_cases hnm : n = m
        · simp [hnm]
        · by_cases hnp : n = prev
          · simp [hnp, hpm, hpn]
          · by_cases hnn : n = next <;> simp [hnm, hnp, hnn, hne, Ne.symm hpn]
      · intro n
        by_cases hnm : n = m
        · simp [hnm]
        · by_cases hnp : n = prev
          · simp [hnp, hpm, hpn, Ne.symm hpn, hcn]
          · by_cases hnn : n = next
            · simp [hnn, hne, hcn, Ne.symm hpn, Ne.symm hpm]
            · simp [hnm, hnp, hnn, hcn, Ne.symm hnn]
      · intro n
        by_cases hnm : n = m
        · simp [hnm]
        · by_cases hnp : n = prev
          · simp [hnp, hpm, hpn, hcp]
          · by_cases hnn : n = next <;>
              simp [hnm, hnp, hnn, hne, hcp, hpn, Ne.symm hpn, Ne.symm hnp]
      · intro u hut
        simp [hut]
      · simp [hcp]
      · simp [hcn]
      · simp

end RtsKernel
