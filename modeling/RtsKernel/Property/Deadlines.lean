import RtsKernel.Library.Ordered
import RtsKernel.Library.Transition
import RtsKernel.Invariant.Ready
import RtsKernel.Model.Run

/-!
# Earliest deadline first

The ready list of the EDF policy, seen against true time and true release numbers. The kernel keeps
deadlines and release numbers modulo `2 ^ 32`, the latter without zero, and compares them by their
modular distance; this comparison is not transitive in general. As long as the true deadlines and
the true numbers of the ready tasks stay within half the range of each other, it agrees with the
true order on every task that is inserted.

## Main results

* `releaseNumber_later`: the stored numbers of two releases within half the range are not confused.
* `EdfState.InWindow.pairwise_insert`: a new release is inserted at its place.
* `EdfOk.step`: every operation of the policy keeps the true order.
* `edf_ready_order`: order, pick and stored deadlines in every run.
-/

namespace RtsKernel

open Halting Prog

variable {cfg : Config} {k' : Kernel} {t u : TaskId} {a b m n : Nat}

/-! ## Modular numbers -/

theorem tickBefore_ofNat (hab : a < b + 2 ^ 31) (hba : b < a + 2 ^ 31) :
    tickBefore (.ofNat 32 a) (.ofNat 32 b) ↔ a < b := by
  rw [tickBefore_iff, distance]
  bv_omega

theorem ofNat_inj_of_near (hab : a < b + 2 ^ 31) (hba : b < a + 2 ^ 31) :
    BitVec.ofNat 32 a = BitVec.ofNat 32 b ↔ a = b := by
  bv_omega

/-- The release sequence number that the kernel holds after `n` releases. -/
def releaseNumber : Nat → Tick
  | 0 => 0
  | n + 1 => nextReleaseSequence (releaseNumber n)

/-- The numbers go round the nonzero ones. -/
theorem toNat_releaseNumber (n : Nat) : (releaseNumber (n + 1)).toNat = 1 + n % (2 ^ 32 - 1) := by
  induction n with
  | zero => rfl
  | succ n ih =>
    rw [releaseNumber, nextReleaseSequence]
    split <;> rename_i hwrap
    · have hlast : n % (2 ^ 32 - 1) = 2 ^ 32 - 2 := by bv_omega
      have hnext : (n + 1) % (2 ^ 32 - 1) = 0 := by omega
      bv_omega
    · have hlast : n % (2 ^ 32 - 1) ≠ 2 ^ 32 - 2 := by bv_omega
      have hnext : (n + 1) % (2 ^ 32 - 1) = n % (2 ^ 32 - 1) + 1 := by omega
      bv_omega

theorem releaseNumber_ne_zero (hn : n ≠ 0) : releaseNumber n ≠ 0 := by
  obtain ⟨m, rfl⟩ := Nat.exists_eq_succ_of_ne_zero hn
  have := toNat_releaseNumber m
  intro hzero
  rw [hzero] at this
  simp at this
  omega

/-- A later release within half the range has another number and is not taken for an earlier one. -/
theorem releaseNumber_later (hm : m ≠ 0) (hmn : m < n) (hspan : n < m + 2 ^ 31) :
    releaseNumber n ≠ releaseNumber m ∧ ¬ tickBefore (releaseNumber n) (releaseNumber m) := by
  obtain ⟨m, rfl⟩ := Nat.exists_eq_add_one_of_ne_zero hm
  obtain ⟨n, rfl⟩ := Nat.exists_eq_add_one_of_ne_zero (show n ≠ 0 by omega)
  have hm' := toNat_releaseNumber m
  have hn' := toNat_releaseNumber n
  -- at most one zero is skipped in between
  have hdistance : distance (releaseNumber (m + 1)) (releaseNumber (n + 1)) = n - m ∨
      distance (releaseNumber (m + 1)) (releaseNumber (n + 1)) = n - m + 1 := by
    have hround : n % (2 ^ 32 - 1) = m % (2 ^ 32 - 1) + (n - m) ∨
        n % (2 ^ 32 - 1) + (2 ^ 32 - 1) = m % (2 ^ 32 - 1) + (n - m) := by
      omega
    rw [distance, BitVec.toNat_sub, hm', hn']
    omega
  rw [tickBefore_iff]
  refine ⟨fun heq => ?_, by omega⟩
  rw [heq, distance] at hdistance
  simp at hdistance
  omega

/-! ## The policy and its observer -/

/-- The kernel, and beside it what an observer knows of the releases: the true time, how many there
have been and which tasks are ready, and of the latest release of each task its true time, the
relative deadline of the task at that time and its number, which a yield renews. -/
structure EdfState where
  kernel : Kernel
  now : Nat
  releases : Nat
  ready : TaskId → Prop
  releasedAt : TaskId → Nat
  relative : TaskId → Tick
  release : TaskId → Nat

namespace EdfState

/-- The true absolute deadline. -/
def deadline (s : EdfState) (t : TaskId) : Nat := s.releasedAt t + (s.relative t).toNat

/-- The true order: by deadline, then by release; idle comes last. -/
def Before (s : EdfState) (t u : TaskId) : Prop :=
  s.kernel.idleTask ≠ some t ∧
  (s.kernel.idleTask = some u ∨ s.deadline t < s.deadline u ∨
    s.deadline t = s.deadline u ∧ s.release t < s.release u)

/-- The true deadlines and the true release numbers of the ready tasks, idle apart, each span less
than half the range. -/
def InWindow (s : EdfState) : Prop :=
  ∀ t u, s.ready t → s.ready u → s.kernel.idleTask ≠ some t → s.kernel.idleTask ≠ some u →
    s.deadline t < s.deadline u + 2 ^ 31 ∧ s.release t < s.release u + 2 ^ 31

/-- A policy that has just been initialised. -/
structure Fresh (s : EdfState) : Prop where
  tick : s.kernel.currentTick = .ofNat 32 s.now
  sequence : s.kernel.policyReleaseSequence = 0
  edfReady : s.kernel.edfReady = []
  releases : s.releases = 0
  ready : ∀ t, ¬ s.ready t
  release : ∀ t, s.release t = 0

/-- The task has been released now. -/
def released (s : EdfState) (t : TaskId) (k' : Kernel) : EdfState :=
  { s with
    kernel := k'
    releases := s.releases + 1
    ready := Function.update s.ready t True
    releasedAt := Function.update s.releasedAt t s.now
    relative := Function.update s.relative t (s.kernel.tasks t).relativeDeadline
    release := Function.update s.release t (s.releases + 1) }

def removed (s : EdfState) (t : TaskId) (k' : Kernel) : EdfState :=
  { s with kernel := k', ready := Function.update s.ready t False }

/-- The task has yielded, which counts as a release when it has moved. -/
def yielded (s : EdfState) (t : TaskId) (moved : Bool) (k' : Kernel) : EdfState :=
  if moved = true then
    { s with
      kernel := k'
      releases := s.releases + 1
      release := Function.update s.release t (s.releases + 1) }
  else { s with kernel := k' }

/-- What the rest of the kernel does between two operations of the policy: time goes on, and
anything may change but the ready list, the sequence and what the policy has written into released
tasks. The idle task is made known while no other is ready. -/
structure Elsewhere (s : EdfState) (elapsed : Nat) (k' : Kernel) : Prop where
  tick : k'.currentTick = s.kernel.currentTick + .ofNat 32 elapsed
  sequence : k'.policyReleaseSequence = s.kernel.policyReleaseSequence
  edfReady : k'.edfReady = s.kernel.edfReady
  idleTask : k'.idleTask = s.kernel.idleTask ∨ ∀ t ∈ s.kernel.edfReady, k'.idleTask = some t
  released : ∀ t, s.release t ≠ 0 → (k'.tasks t).releaseTick = (s.kernel.tasks t).releaseTick ∧
    (k'.tasks t).absoluteDeadline = (s.kernel.tasks t).absoluteDeadline ∧
    (k'.tasks t).releaseSequence = (s.kernel.tasks t).releaseSequence

end EdfState

inductive EdfOp where
  | insert (t : TaskId)
  | unblock (t : TaskId)
  | remove (t : TaskId)
  | yield (t : TaskId)
  | tick (elapsed : Tick)
  | elsewhere (elapsed : Nat)

/-- One operation of the policy. Only tasks that are not ready are released. -/
inductive EdfStep (cfg : Config) (s : EdfState) : EdfOp → EdfState → Prop where
  | insert {t : TaskId} {ok : Bool} {k' : Kernel} (blocked : ¬ s.ready t)
      (call : policyInsert cfg t s.kernel = .ret ok k') :
        EdfStep cfg s (.insert t) (s.released t k')
  | unblock {t : TaskId} {ok : Bool} {k' : Kernel} (blocked : ¬ s.ready t)
      (call : policyTaskUnblock cfg t s.kernel = .ret ok k') :
      EdfStep cfg s (.unblock t) (s.released t k')
  | remove {t : TaskId} {ok : Bool} {k' : Kernel}
      (call : policyRemove cfg t s.kernel = .ret ok k') :
      EdfStep cfg s (.remove t) (s.removed t k')
  | yield {t : TaskId} {moved : Bool} {k' : Kernel}
      (call : policyYield cfg t s.kernel = .ret moved k') :
      EdfStep cfg s (.yield t) (s.yielded t moved k')
  | tick {elapsed : Tick} {c : TaskId} {moved : Bool} {k' : Kernel}
      (current : moved = true → s.kernel.currentTask = some c)
      (call : policyTick cfg elapsed s.kernel = .ret moved k') :
      EdfStep cfg s (.tick elapsed) (s.yielded c moved k')
  | elsewhere {elapsed : Nat} {k' : Kernel} (rest : s.Elsewhere elapsed k') :
      EdfStep cfg s (.elsewhere elapsed) { s with kernel := k', now := s.now + elapsed }

/-- The states that operations of the policy lead to within the window. -/
abbrev EdfRun (cfg : Config) : EdfState → EdfState → Prop :=
  Transition.ReachableFrom (fun s op s' => EdfStep cfg s op s' ∧ s'.InWindow) fun _ _ => True

/-! ## The invariant -/

/-- What the policy has written into a task at its latest release. -/
structure EdfState.Stored (s : EdfState) (t : TaskId) : Prop where
  releaseTick : (s.kernel.tasks t).releaseTick = .ofNat 32 (s.releasedAt t)
  absoluteDeadline :
    (s.kernel.tasks t).absoluteDeadline = (s.kernel.tasks t).releaseTick + s.relative t
  releaseSequence : (s.kernel.tasks t).releaseSequence = releaseNumber (s.release t)

structure EdfOk (s : EdfState) : Prop where
  tick : s.kernel.currentTick = .ofNat 32 s.now
  sequence : s.kernel.policyReleaseSequence = releaseNumber s.releases
  mem : ∀ t, t ∈ s.kernel.edfReady ↔ s.ready t
  numbered : ∀ t, s.ready t → s.release t ≠ 0
  latest : ∀ t, s.release t ≤ s.releases
  stored : ∀ t, s.release t ≠ 0 → s.Stored t
  order : s.kernel.edfReady.Pairwise s.Before

variable {s s' : EdfState} {l : List TaskId}

theorem EdfState.Stored.deadline_eq (h : s.Stored t) :
    (s.kernel.tasks t).absoluteDeadline = .ofNat 32 (s.deadline t) := by
  rw [h.absoluteDeadline, h.releaseTick, EdfState.deadline, BitVec.ofNat_add]
  simp

theorem EdfState.Before.trans {v : TaskId} (htu : s.Before t u) (huv : s.Before u v) :
    s.Before t v := by
  obtain ⟨ht, htu⟩ := htu
  obtain ⟨hu, huv⟩ := huv
  refine ⟨ht, huv.imp_right fun huv => ?_⟩
  have := htu.resolve_left hu
  omega

theorem EdfState.Before.irrefl : ¬ s.Before t t := by
  rintro ⟨ht, hidle | hlt | ⟨-, hlt⟩⟩
  · exact ht hidle
  · exact Nat.lt_irrefl _ hlt
  · exact Nat.lt_irrefl _ hlt

/-- Compared with the latest release, the modular order is the true one. -/
theorem EdfState.InWindow.isBefore_iff (hw : s.InWindow) (ht : s.ready t) (hu : s.ready u)
    (htstored : s.Stored t) (hustored : s.Stored u) (hne : s.release u ≠ 0)
    (hlater : s.release u < s.release t) : EdfIsBefore s.kernel t u ↔ s.Before t u := by
  unfold EdfIsBefore EdfState.Before
  refine and_congr_right fun hti => ?_
  by_cases hui : s.kernel.idleTask = some u
  · simp [hui]
  obtain ⟨hdtu, -⟩ := hw t u ht hu hti hui
  obtain ⟨hdut, -⟩ := hw u t hu ht hui hti
  obtain ⟨-, hspan⟩ := hw t u ht hu hti hui
  refine or_congr_right ?_
  rw [htstored.deadline_eq, hustored.deadline_eq, htstored.releaseSequence,
    hustored.releaseSequence, tickBefore_ofNat hdtu hdut]
  simp only [ne_eq, ofNat_inj_of_near hdtu hdut]
  obtain ⟨-, hnot⟩ := releaseNumber_later hne hlater hspan
  split
  · omega
  · simp only [hnot, and_false, false_iff]
    omega

/-- The latest release is inserted at its place in the true order. -/
theorem EdfState.InWindow.pairwise_insert (hw : s.InWindow) (hl : l.Pairwise s.Before)
    (htl : t ∉ l) (ht : s.ready t) (htstored : s.Stored t)
    (hother : ∀ u ∈ l, s.ready u ∧ s.Stored u ∧ s.release u ≠ 0 ∧ s.release u < s.release t) :
    (l.orderedInsert (EdfIsBefore s.kernel) t).Pairwise s.Before := by
  have hiff : ∀ u ∈ l, (EdfIsBefore s.kernel t u ↔ s.Before t u) := by
    intro u hu
    obtain ⟨hready, hstored, hne, hlater⟩ := hother u hu
    exact hw.isBefore_iff ht hready htstored hstored hne hlater
  refine Ordered.pairwise_orderedInsert hl (fun u hu => (hiff u hu).mp) (fun u hu hnot => ?_)
    fun _ _ _ _ => .trans
  rw [hiff u hu, EdfState.Before] at hnot
  have hlater := (hother u hu).2.2.2
  have hut : u ≠ t := by
    rintro rfl
    exact htl hu
  by_cases hidle : s.kernel.idleTask = some t
  · refine ⟨fun hui => hut ?_, .inl hidle⟩
    exact Option.some.inj (hui.symm.trans hidle)
  · have := not_and.mp hnot hidle
    rw [not_or, not_or] at this
    exact ⟨this.1, .inr (by omega)⟩

theorem EdfOk.nodup (h : EdfOk s) : s.kernel.edfReady.Nodup := by
  refine List.Pairwise.imp ?_ h.order
  rintro t u hlt rfl
  exact hlt.irrefl

/-! ## Releases -/

/-- What an insertion and a yield have in common: one task has got the next release number and
stands where the policy puts it. -/
structure Releases (s s' : EdfState) (t : TaskId) : Prop where
  now : s'.now = s.now
  tick : s'.kernel.currentTick = s.kernel.currentTick
  idleTask : s'.kernel.idleTask = s.kernel.idleTask
  releases : s'.releases = s.releases + 1
  sequence : s'.kernel.policyReleaseSequence = nextReleaseSequence s.kernel.policyReleaseSequence
  edfReady :
    s'.kernel.edfReady = (s.kernel.edfReady.erase t).orderedInsert (EdfIsBefore s'.kernel) t
  ready : s'.ready t
  release : s'.release t = s.releases + 1
  stored : s'.Stored t
  other : ∀ u, u ≠ t → s'.kernel.tasks u = s.kernel.tasks u ∧ (s'.ready u ↔ s.ready u) ∧
    s'.releasedAt u = s.releasedAt u ∧ s'.relative u = s.relative u ∧ s'.release u = s.release u

namespace Releases

theorem stored_iff (h : Releases s s' t) (hu : u ≠ t) : s'.Stored u ↔ s.Stored u := by
  obtain ⟨htask, -, hat, hrel, hnum⟩ := h.other u hu
  constructor
  · rintro ⟨h1, h2, h3⟩
    rw [htask] at h1 h2 h3
    exact ⟨hat ▸ h1, hrel ▸ h2, hnum ▸ h3⟩
  · rintro ⟨h1, h2, h3⟩
    rw [← htask] at h1 h2 h3
    exact ⟨hat ▸ h1, hrel ▸ h2, hnum ▸ h3⟩

theorem before_iff {v : TaskId} (h : Releases s s' t) (hu : u ≠ t) (hv : v ≠ t) :
    s'.Before u v ↔ s.Before u v := by
  obtain ⟨-, -, hat, hrel, hnum⟩ := h.other u hu
  obtain ⟨-, -, hat', hrel', hnum'⟩ := h.other v hv
  simp only [EdfState.Before, EdfState.deadline, h.idleTask, hat, hrel, hnum, hat', hrel', hnum']

theorem ok (h : Releases s s' t) (hs : EdfOk s) (hw : s'.InWindow) : EdfOk s' := by
  have hne : ∀ u ∈ s.kernel.edfReady.erase t, u ≠ t := by
    rintro u hu rfl
    exact hs.nodup.not_mem_erase hu
  constructor
  · rw [h.tick, h.now, hs.tick]
  · rw [h.sequence, h.releases, hs.sequence]
    rfl
  · intro u
    rw [h.edfReady, Ordered.mem_orderedInsert]
    rcases eq_or_ne u t with rfl | hu
    · simp [h.ready]
    · rw [List.mem_erase_of_ne hu, hs.mem, (h.other u hu).2.1]
      simp [hu]
  · intro u hu
    rcases eq_or_ne u t with rfl | hut
    · simp [h.release]
    · obtain ⟨-, hready, -, -, hnum⟩ := h.other u hut
      rw [hnum]
      exact hs.numbered u (hready.mp hu)
  · intro u
    rw [h.releases]
    rcases eq_or_ne u t with rfl | hut
    · exact h.release.le
    · rw [(h.other u hut).2.2.2.2]
      exact Nat.le_succ_of_le (hs.latest u)
  · intro u hu
    rcases eq_or_ne u t with rfl | hut
    · exact h.stored
    · rw [(h.other u hut).2.2.2.2] at hu
      exact (h.stored_iff hut).mpr (hs.stored u hu)
  · rw [h.edfReady]
    refine hw.pairwise_insert ?_ hs.nodup.not_mem_erase h.ready h.stored fun u hu => ?_
    · refine (hs.order.sublist List.erase_sublist).imp_of_mem fun {a b} ha hb hab => ?_
      exact (h.before_iff (hne a ha) (hne b hb)).mpr hab
    · have hut := hne u hu
      have hready := (hs.mem u).mp (List.mem_of_mem_erase hu)
      have hnum := hs.numbered u hready
      obtain ⟨-, hsame, -, -, hsamenum⟩ := h.other u hut
      rw [h.release, hsamenum]
      exact ⟨hsame.mpr hready, (h.stored_iff hut).mpr (hs.stored u hnum), hnum,
        Nat.lt_succ_of_le (hs.latest u)⟩

end Releases

/-! ## Steps -/

namespace EdfOk

theorem start (h : s.Fresh) : EdfOk s where
  tick := h.tick
  sequence := by rw [h.sequence, h.releases]; rfl
  mem t := by simp [h.edfReady, h.ready]
  numbered t ht := absurd ht (h.ready t)
  latest t := by rw [h.release]; exact Nat.zero_le _
  stored t ht := absurd (h.release t) ht
  order := by simp [h.edfReady]

theorem insert {E : Fatal → Kernel → Prop} (hpol : cfg.policy = .edf) (h : EdfOk s)
    (ht : ¬ s.ready t) :
    wp (policyInsert cfg t) (fun _ k' => Releases s (s.released t k') t) E s.kernel := by
  have hnot : t ∉ s.kernel.edfReady := fun hin => ht ((h.mem t).mp hin)
  unfold policyInsert policyRecordRelease policyEdfInsert
  simp only [hpol]
  rw [wp_bind, wp_modify, wp_bind, wp_get, wp_ite, if_neg (by exact hnot), wp_bind, wp_modify,
    wp_pure]
  refine ⟨rfl, rfl, rfl, rfl, rfl, ?_, by simp [EdfState.released], by simp [EdfState.released], ?_,
    fun u hu => by simp [EdfState.released, Kernel.updateTask, hu]⟩
  · rw [List.erase_of_not_mem hnot]
    rfl
  · constructor
    · simpa [EdfState.released, Kernel.updateTask] using h.tick
    · simp only [EdfState.released, Kernel.updateTask, Function.update_self]
      split <;> simp_all
    · simp [EdfState.released, Kernel.updateTask, h.sequence, releaseNumber]

theorem removed (h : EdfOk s) (t : TaskId) :
    EdfOk (s.removed t { s.kernel with edfReady := s.kernel.edfReady.erase t }) where
  tick := h.tick
  sequence := h.sequence
  mem u := by
    change u ∈ s.kernel.edfReady.erase t ↔ Function.update s.ready t False u
    rw [h.nodup.mem_erase_iff, h.mem]
    rcases eq_or_ne u t with rfl | hu
    · simp
    · simp [hu]
  numbered u hu := by
    refine h.numbered u ?_
    rcases eq_or_ne u t with rfl | hut
    · simp [EdfState.removed] at hu
    · simpa [EdfState.removed, hut] using hu
  latest := h.latest
  stored u hu := ⟨(h.stored u hu).1, (h.stored u hu).2, (h.stored u hu).3⟩
  order := h.order.sublist List.erase_sublist

theorem remove {E : Fatal → Kernel → Prop} (hpol : cfg.policy = .edf) (h : EdfOk s) :
    wp (policyRemove cfg t) (fun _ k' => EdfOk (s.removed t k')) E s.kernel := by
  unfold policyRemove policyEdfRemove
  simp only [hpol]
  rw [wp_bind, wp_get, wp_ite]
  split <;> rename_i hin
  · exact h.removed t
  · have hsame := h.removed t
    rwa [List.erase_of_not_mem hin] at hsame

/-- A task that yields is released anew where it stands, or nothing happens. -/
theorem yield {E : Fatal → Kernel → Prop} (h : EdfOk s) :
    wp (policyEdfYield t) (fun moved k' => moved = false ∧ k' = s.kernel ∨
      moved = true ∧ Releases s (s.yielded t true k') t) E s.kernel := by
  unfold policyEdfYield
  rw [wp_bind, wp_get]
  cases hnext : successor t s.kernel.edfReady with
  | none => exact .inl ⟨rfl, rfl⟩
  | some next =>
    simp only
    rw [wp_ite]
    split
    · exact .inl ⟨rfl, rfl⟩
    · have hin := mem_of_successor hnext
      have hready := (h.mem t).mp hin
      have hstored := h.stored t (h.numbered t hready)
      unfold policyEdfRemove policyEdfInsert
      rw [wp_bind, wp_bind, wp_get, wp_ite, if_pos hin, wp_bind, wp_modify, wp_pure, wp_bind,
        wp_modify, wp_bind, wp_get, wp_ite, if_neg (by exact h.nodup.not_mem_erase), wp_bind,
        wp_modify, wp_pure]
      refine .inr ⟨rfl, rfl, rfl, rfl, rfl, rfl, rfl, hready, ?_, ?_, fun u hu => ?_⟩
      · simp [EdfState.yielded]
      · constructor
        · simpa [EdfState.yielded, Kernel.updateTask] using hstored.releaseTick
        · simpa [EdfState.yielded, Kernel.updateTask] using hstored.absoluteDeadline
        · simp [EdfState.yielded, Kernel.updateTask, h.sequence, releaseNumber]
      · simp [EdfState.yielded, Kernel.updateTask, hu]

theorem elsewhere (h : EdfOk s) (hrest : s.Elsewhere n k') :
    EdfOk { s with kernel := k', now := s.now + n } where
  tick := by
    change k'.currentTick = .ofNat 32 (s.now + n)
    rw [hrest.tick, h.tick, BitVec.ofNat_add]
  sequence := hrest.sequence.trans h.sequence
  mem u := by
    change u ∈ k'.edfReady ↔ s.ready u
    rw [hrest.edfReady, h.mem]
  numbered := h.numbered
  latest := h.latest
  stored u hu := by
    obtain ⟨h1, h2, h3⟩ := h.stored u hu
    obtain ⟨hat, hdeadline, hnum⟩ := hrest.released u hu
    exact ⟨hat.trans h1, by rw [hdeadline, hat]; exact h2, hnum.trans h3⟩
  order := by
    change k'.edfReady.Pairwise _
    rw [hrest.edfReady]
    rcases hrest.idleTask with hidle | hidle
    · refine h.order.imp fun {a b} hab => ?_
      unfold EdfState.Before at hab ⊢
      rw [hidle]
      exact hab
    · -- there is at most one ready task
      have hnodup := h.nodup
      revert hidle hnodup
      cases s.kernel.edfReady with
      | nil => simp
      | cons a l =>
        intro hidle hnodup
        cases l with
        | nil => simp
        | cons b l =>
          have hab : a = b := Option.some.inj ((hidle a (by simp)).symm.trans (hidle b (by simp)))
          simp [hab] at hnodup

theorem sliced (h : EdfOk s) (c : TaskId) (slice : Tcb → Tick) :
    EdfOk { s with kernel := s.kernel.updateTask c fun task =>
      { task with sliceRemaining := slice task } } :=
  h.elsewhere (n := 0) {
    tick := by simp [Kernel.updateTask]
    sequence := rfl
    edfReady := rfl
    idleTask := .inl rfl
    released := fun t _ => by
      rcases eq_or_ne t c with rfl | ht
      · simp [Kernel.updateTask]
      · simp [Kernel.updateTask, ht] }

theorem tick_step {E : Fatal → Kernel → Prop} {elapsed : Tick} {c : TaskId}
    (hpol : cfg.policy = .edf) (h : EdfOk s) : wp (policyTick cfg elapsed)
      (fun moved k' => (moved = true → s.kernel.currentTask = some c) →
        (s.yielded c moved k').InWindow → EdfOk (s.yielded c moved k')) E s.kernel := by
  unfold policyTick policyEdfTick
  simp only [hpol]
  rw [wp_bind, wp_get]
  cases hc : s.kernel.currentTask with
  | none => exact fun _ _ => h
  | some d =>
    simp only
    rw [wp_ite]
    split
    · exact fun _ _ => h
    rw [wp_ite]
    split
    · exact fun _ _ => h.sliced d fun task => task.sliceRemaining - elapsed
    · rw [wp_bind, wp_modify]
      have hs := h.sliced d fun _ => cfg.timeSliceTicks
      refine wp_mono hs.yield (fun moved k' hmoved hcur hw => ?_) fun _ _ => id
      rcases hmoved with ⟨rfl, rfl⟩ | ⟨rfl, hrel⟩
      · exact hs
      · obtain rfl : d = c := Option.some.inj (hcur rfl)
        exact hrel.ok hs hw

theorem step {op : EdfOp} (hpol : cfg.policy = .edf) (h : EdfOk s) (hstep : EdfStep cfg s op s')
    (hw : s'.InWindow) : EdfOk s' := by
  cases hstep with
  | insert blocked call =>
    exact (wp_ret (h.insert (E := fun _ _ => True) hpol blocked) call).ok h hw
  | unblock blocked call =>
    exact (wp_ret (h.insert (E := fun _ _ => True) hpol blocked) call).ok h hw
  | remove call => exact (wp_ret (h.remove (E := fun _ _ => True) hpol) call :)
  | @yield t moved k' call =>
    simp only [policyYield, hpol] at call
    rcases wp_ret (h.yield (E := fun _ _ => True)) call with ⟨rfl, rfl⟩ | ⟨rfl, hrel⟩
    · exact h
    · exact hrel.ok h hw
  | tick current call => exact wp_ret (h.tick_step (E := fun _ _ => True) hpol) call current hw
  | elsewhere rest => exact h.elsewhere rest

theorem run {s₀ : EdfState} (hpol : cfg.policy = .edf) (hstart : s₀.Fresh)
    (hrun : EdfRun cfg s₀ s) : EdfOk s :=
  hrun.invariant (start hstart) fun _ _ _ h _ hstep => h.step hpol hstep.1 hstep.2

/-- The head of the list is the first of the true order. -/
theorem pick (hpol : cfg.policy = .edf) (h : EdfOk s) (ht : s.ready t)
    (hidle : s.kernel.idleTask ≠ some t) :
    ∃ p, policyPickNext cfg s.kernel = some p ∧ s.ready p ∧ s.kernel.idleTask ≠ some p ∧
      ∀ u, s.ready u → s.kernel.idleTask ≠ some u → u ≠ p →
        s.deadline p < s.deadline u ∨ s.deadline p = s.deadline u ∧ s.release p < s.release u := by
  have hpick : policyPickNext cfg s.kernel = s.kernel.edfReady.head? := by
    simp [policyPickNext, hpol]
  have hmem := h.mem
  have horder := h.order
  rw [hpick]
  cases hlist : s.kernel.edfReady with
  | nil =>
    rw [← hmem, hlist] at ht
    simp at ht
  | cons p l =>
    simp only [hlist] at hmem horder
    obtain ⟨hfirst, -⟩ := List.pairwise_cons.mp horder
    have hbefore : ∀ u, s.ready u → u ≠ p → s.Before p u := fun u hu hup =>
      hfirst u ((List.mem_cons.mp ((hmem u).mpr hu)).resolve_left hup)
    have hp : s.kernel.idleTask ≠ some p := by
      rcases eq_or_ne t p with rfl | htp
      · exact hidle
      · exact (hbefore t ht htp).1
    refine ⟨p, rfl, (hmem p).mp (by simp), hp, fun u hu hui hup => ?_⟩
    exact (hbefore u hu hup).2.resolve_left hui

end EdfOk

/-- In every run of the EDF policy within the window the ready list holds the ready tasks in the
true order with idle last, the policy selects the first of them, and the stored deadline and number
of a task are those of its latest release. -/
theorem edf_ready_order {s₀ : EdfState} (hpol : cfg.policy = .edf) (hstart : s₀.Fresh)
    (hrun : EdfRun cfg s₀ s) :
    (∀ t, t ∈ s.kernel.edfReady ↔ s.ready t) ∧
    s.kernel.edfReady.Pairwise s.Before ∧
    (∀ t, s.ready t → s.kernel.idleTask ≠ some t → ∃ p, policyPickNext cfg s.kernel = some p ∧
      s.ready p ∧ s.kernel.idleTask ≠ some p ∧
      ∀ u, s.ready u → s.kernel.idleTask ≠ some u → u ≠ p →
        s.deadline p < s.deadline u ∨ s.deadline p = s.deadline u ∧ s.release p < s.release u) ∧
    (∀ t, s.ready t → s.release t ≠ 0) ∧
    (∀ t, s.release t ≠ 0 →
      (s.kernel.tasks t).releaseTick = .ofNat 32 (s.releasedAt t) ∧
      (s.kernel.tasks t).absoluteDeadline = (s.kernel.tasks t).releaseTick + s.relative t ∧
      (s.kernel.tasks t).absoluteDeadline = .ofNat 32 (s.deadline t) ∧
      (s.kernel.tasks t).releaseSequence = releaseNumber (s.release t) ∧
      (s.kernel.tasks t).releaseSequence ≠ 0) := by
  have h := EdfOk.run hpol hstart hrun
  refine ⟨h.mem, h.order, fun t ht hidle => h.pick hpol ht hidle, h.numbered, fun t ht => ?_⟩
  have hstored := h.stored t ht
  refine ⟨hstored.releaseTick, hstored.absoluteDeadline, hstored.deadline_eq,
    hstored.releaseSequence, ?_⟩
  rw [hstored.releaseSequence]
  exact releaseNumber_ne_zero ht

/-- The sample configuration under EDF. -/
def edfConfig : Config := { sampleConfig with policy := .edf, rms_ranks := by decide }

/-- Two ticks before the clock wraps, with idle known and a relative deadline of 5 ticks for all. -/
def beforeWrap : EdfState where
  kernel := { resetKernel with
    currentTick := .ofNat 32 (2 ^ 32 - 2)
    idleTask := some .idle
    tasks := fun _ => { relativeDeadline := 5 } }
  now := 2 ^ 32 - 2
  releases := 0
  ready _ := False
  releasedAt _ := 0
  relative _ := 0
  release _ := 0

def firstReleased : EdfState :=
  beforeWrap.released (.slot 0) (policyInsert edfConfig (.slot 0) beforeWrap.kernel).state

def bothReleased : EdfState :=
  firstReleased.released (.slot 1) (policyInsert edfConfig (.slot 1) firstReleased.kernel).state

/-- The first task has yielded to the second. -/
def firstYielded : EdfState :=
  bothReleased.yielded (.slot 0) true (policyYield edfConfig (.slot 0) bothReleased.kernel).state

theorem EdfState.InWindow.of_mem {l : List TaskId} (hready : ∀ t, s.ready t → t ∈ l)
    (h : ∀ t ∈ l, ∀ u ∈ l, s.deadline t < s.deadline u + 2 ^ 31 ∧
      s.release t < s.release u + 2 ^ 31) :
    s.InWindow :=
  fun t u ht hu _ _ => h t (hready t ht) u (hready u hu)

theorem edfRun_firstYielded : EdfRun edfConfig beforeWrap firstYielded := by
  have hready : ∀ t, bothReleased.ready t → t ∈ [TaskId.slot 0, .slot 1] := by
    intro t ht
    by_contra hnot
    simp only [List.mem_cons, List.not_mem_nil, or_false, not_or] at hnot
    simp [bothReleased, firstReleased, EdfState.released, hnot, beforeWrap] at ht
  have hfirst : EdfRun edfConfig beforeWrap firstReleased := by
    refine .tail (i := .insert (.slot 0)) (.refl _) trivial ⟨?_, ?_⟩
    · exact .insert id (Outcome.eq_ret (a := true) (by decide +kernel))
    · refine .of_mem (l := [.slot 0]) (fun t ht => ?_) (by decide +kernel)
      by_contra hnot
      rw [List.mem_singleton] at hnot
      simp [firstReleased, EdfState.released, hnot, beforeWrap] at ht
  have hboth : EdfRun edfConfig beforeWrap bothReleased := by
    refine .tail (i := .insert (.slot 1)) hfirst trivial ⟨?_, ?_⟩
    · refine .insert ?_ (Outcome.eq_ret (a := true) (by decide +kernel))
      simp [firstReleased, EdfState.released, beforeWrap]
    · exact .of_mem hready (by decide +kernel)
  refine .tail (i := .yield (.slot 0)) hboth trivial ⟨?_, ?_⟩
  · exact .yield (Outcome.eq_ret (by decide +kernel))
  · exact .of_mem hready (by decide +kernel)

theorem edf_ready_order_yield : EdfRun edfConfig beforeWrap firstYielded ∧
    firstYielded.kernel.edfReady = [.slot 1, .slot 0] ∧
    (firstYielded.kernel.tasks (.slot 0)).absoluteDeadline = 3 ∧
    policyPickNext edfConfig firstYielded.kernel = some (.slot 1) ∧
    firstYielded.kernel.edfReady.Pairwise firstYielded.Before :=
  have hstart : beforeWrap.Fresh := ⟨rfl, rfl, rfl, rfl, fun _ => id, fun _ => rfl⟩
  ⟨edfRun_firstYielded, by decide +kernel, by decide +kernel, by decide +kernel,
    (edf_ready_order rfl hstart edfRun_firstYielded).2.1⟩

end RtsKernel
