import RtsKernel.Library.DoublyLinked

/-!
# Intrusive lists in a heap

A heap of nodes that carry their own links and name the list that owns them, and of lists that are
a head pointer, a tail pointer and a count. `Represents h c`: list `i` of the heap is the sequence
`c i`, and every node that no list owns is unlinked. The two edits are `link` and `unlink`; each
changes the sequence of one list and no other.
-/

namespace DoublyLinked

structure Node (ι ν : Type) where
  previous : Option ν
  next : Option ν
  owner : Option ι
  deriving DecidableEq

structure Ends (ν : Type) where
  head : Option ν
  tail : Option ν
  count : Nat
  deriving DecidableEq

structure Heap (ι ν : Type) where
  nodes : ν → Node ι ν
  lists : ι → Ends ν

variable {ι ν : Type}

/-- List `i` of the heap is the sequence `c i`, for every list. -/
structure Represents (h : Heap ι ν) (c : ι → List ν) : Prop where
  isList : ∀ i, IsList (fun n => (h.nodes n).previous) (fun n => (h.nodes n).next)
    (h.lists i).head (h.lists i).tail (c i)
  count : ∀ i, (h.lists i).count = (c i).length
  owner : ∀ n i, (h.nodes n).owner = some i ↔ n ∈ c i
  free : ∀ n, (h.nodes n).owner = none → (h.nodes n).previous = none ∧ (h.nodes n).next = none

namespace Heap

variable [DecidableEq ι] [DecidableEq ν]

/-- Make list `i` empty, whatever its ends were. -/
@[simps]
def clear (h : Heap ι ν) (i : ι) : Heap ι ν :=
  { h with lists := Function.update h.lists i ⟨none, none, 0⟩ }

/-- Link the node `n` into list `i` between `previous` and `next`. -/
def link (h : Heap ι ν) (i : ι) (previous : Option ν) (n : ν) (next : Option ν) : Heap ι ν where
  nodes := fun m =>
    if m = n then ⟨previous, next, some i⟩
    else
      { previous := if next = some m then some n else (h.nodes m).previous
        next := if previous = some m then some n else (h.nodes m).next
        owner := (h.nodes m).owner }
  lists := Function.update h.lists i
    { head := if previous = none then some n else (h.lists i).head
      tail := if next = none then some n else (h.lists i).tail
      count := (h.lists i).count + 1 }

/-- Take the node `n` out of list `i`. -/
def unlink (h : Heap ι ν) (i : ι) (n : ν) : Heap ι ν where
  nodes := fun m =>
    if m = n then ⟨none, none, none⟩
    else
      { previous :=
          if (h.nodes n).next = some m then (h.nodes n).previous else (h.nodes m).previous
        next := if (h.nodes n).previous = some m then (h.nodes n).next else (h.nodes m).next
        owner := (h.nodes m).owner }
  lists := Function.update h.lists i
    { head := if (h.nodes n).previous = none then (h.nodes n).next else (h.lists i).head
      tail := if (h.nodes n).next = none then (h.nodes n).previous else (h.lists i).tail
      count := (h.lists i).count - 1 }

end Heap

/-- Where all nodes are loose and all lists empty, every list is the empty sequence. -/
theorem represents_nil {h : Heap ι ν} (hnodes : ∀ n, h.nodes n = ⟨none, none, none⟩)
    (hlists : ∀ i, h.lists i = ⟨none, none, 0⟩) : Represents h fun _ => [] where
  isList i := by
    rw [hlists i]
    exact ⟨trivial, rfl, rfl, List.nodup_nil⟩
  count i := by simp [hlists i]
  owner n i := by simp [hnodes n]
  free n _ := by simp [hnodes n]

namespace Represents

variable {h : Heap ι ν} {c : ι → List ν} {i j : ι} {n m : ν} {l₁ l₂ : List ν}

theorem nodup (hr : Represents h c) : (c i).Nodup := (hr.isList i).nodup

/-- No node is in two lists. -/
theorem list_unique (hr : Represents h c) (hi : n ∈ c i) (hj : n ∈ c j) : i = j := by
  have howner := (hr.owner n i).2 hi
  rw [(hr.owner n j).2 hj] at howner
  exact (Option.some.inj howner).symm

theorem head_eq (hr : Represents h c) : (h.lists i).head = (c i).head? := (hr.isList i).head_eq

theorem tail_eq (hr : Represents h c) : (h.lists i).tail = (c i).getLast? := (hr.isList i).tail_eq

theorem owner_none (hr : Represents h c) : (h.nodes n).owner = none ↔ ∀ i, n ∉ c i := by
  constructor
  · intro hnone i hi
    rw [(hr.owner n i).2 hi] at hnone
    exact Option.some_ne_none _ hnone
  · intro hout
    cases hown : (h.nodes n).owner with
    | none => rfl
    | some i => exact absurd ((hr.owner n i).1 hown) (hout i)

theorem neighbours (hr : Represents h c) (hsplit : c i = l₁ ++ n :: l₂) :
    (h.nodes n).previous = l₁.getLast? ∧ (h.nodes n).next = l₂.head? := by
  have hlist := hr.isList i
  rw [hsplit] at hlist
  exact hlist.neighbours

/-- A list that is empty may be made empty again. -/
theorem clear_eq [DecidableEq ι] (hr : Represents h c) (hi : c i = []) : h.clear i = h := by
  have hends : h.lists i = ⟨none, none, 0⟩ := by
    have hhead := hr.head_eq (i := i)
    have htail := hr.tail_eq (i := i)
    have hcount := hr.count i
    rw [hi] at hhead htail hcount
    cases hlist : h.lists i
    simp_all
  rw [Heap.clear, ← hends, Function.update_eq_self]

variable [DecidableEq ι] [DecidableEq ν]

theorem link (hr : Represents h c) (hfree : (h.nodes n).owner = none) (hsplit : c i = l₁ ++ l₂) :
    Represents (h.link i l₁.getLast? n l₂.head?) (Function.update c i (l₁ ++ n :: l₂)) := by
  have hout : ∀ j, n ∉ c j := hr.owner_none.1 hfree
  have hfirst : ∀ {a}, l₂.head? = some a → a ∈ c i := fun ha => by
    rw [hsplit]
    exact List.mem_append_right _ (List.mem_of_head? ha)
  have hlast : ∀ {a}, l₁.getLast? = some a → a ∈ c i := fun ha => by
    rw [hsplit]
    exact List.mem_append_left _ (List.mem_of_getLast? ha)
  refine ⟨fun j => ?_, fun j => ?_, fun m j => ?_, fun m hm => ?_⟩
  · by_cases hj : j = i
    · subst hj
      have hlist := hr.isList j
      rw [hsplit] at hlist
      have hne : ∀ a ∈ l₁ ++ l₂, a ≠ n := by
        rintro a ha rfl
        exact hout j (hsplit ▸ ha)
      simp only [Heap.link, Function.update_self]
      refine hlist.insert (hsplit ▸ hout j) (by simp) (by simp) (fun a ha => ?_) (fun a ha => ?_)
      · simp [hne a ha]
      · simp [hne a ha]
    · -- a list that is not edited shares no node with the one that is
      simp only [Heap.link, Function.update_of_ne hj]
      refine (hr.isList j).congr (fun a ha => ?_) (fun a ha => ?_)
      · have hne : a ≠ n := fun heq => hout j (heq ▸ ha)
        have hnext : l₂.head? ≠ some a := fun heq => hj (hr.list_unique ha (hfirst heq))
        simp [hne, hnext]
      · have hne : a ≠ n := fun heq => hout j (heq ▸ ha)
        have hprev : l₁.getLast? ≠ some a := fun heq => hj (hr.list_unique ha (hlast heq))
        simp [hne, hprev]
  · by_cases hj : j = i
    · subst hj
      simp [Heap.link, hr.count, hsplit, Nat.add_assoc]
    · simp [Heap.link, hj, hr.count]
  · have hcases := hr.owner m j
    by_cases hm : m = n
    · subst hm
      by_cases hj : j = i
      · simp [Heap.link, hj]
      · simpa [Heap.link, hj, Ne.symm hj] using hout j
    · by_cases hj : j = i
      · subst hj
        rw [hsplit] at hcases
        simpa [Heap.link, hm] using hcases
      · simpa [Heap.link, hm, hj] using hcases
  · have hmn : m ≠ n := by
      rintro rfl
      simp [Heap.link] at hm
    have hown : (h.nodes m).owner = none := by simpa [Heap.link, hmn] using hm
    have hm_out := hr.owner_none.1 hown i
    have hnext : l₂.head? ≠ some m := fun heq => hm_out (hfirst heq)
    have hprev : l₁.getLast? ≠ some m := fun heq => hm_out (hlast heq)
    simpa [Heap.link, hmn, hnext, hprev] using hr.free m hown

theorem unlink (hr : Represents h c) (hsplit : c i = l₁ ++ n :: l₂) :
    Represents (h.unlink i n) (Function.update c i (l₁ ++ l₂)) := by
  obtain ⟨hprev, hnext⟩ := hr.neighbours hsplit
  have hn : n ∈ c i := by simp [hsplit]
  have hnodup : (l₁ ++ n :: l₂).Nodup := hsplit ▸ hr.nodup
  have hn_out : n ∉ l₁ ++ l₂ := by
    rw [List.nodup_middle, List.nodup_cons] at hnodup
    exact hnodup.1
  have hfirst : ∀ {a}, (h.nodes n).next = some a → a ∈ c i := fun ha => by
    rw [hnext] at ha
    rw [hsplit]
    exact List.mem_append_right _ (List.mem_cons_of_mem _ (List.mem_of_head? ha))
  have hlast : ∀ {a}, (h.nodes n).previous = some a → a ∈ c i := fun ha => by
    rw [hprev] at ha
    rw [hsplit]
    exact List.mem_append_left _ (List.mem_of_getLast? ha)
  refine ⟨fun j => ?_, fun j => ?_, fun m j => ?_, fun m hm => ?_⟩
  · by_cases hj : j = i
    · subst hj
      have hlist := hr.isList j
      rw [hsplit] at hlist
      have hne : ∀ a ∈ l₁ ++ l₂, a ≠ n := fun a ha heq => hn_out (heq ▸ ha)
      simp only [Heap.unlink, Function.update_self]
      refine hlist.unlink (fun a ha => ?_) (fun a ha => ?_)
      · simp [hne a ha]
      · simp [hne a ha]
    · simp only [Heap.unlink, Function.update_of_ne hj]
      refine (hr.isList j).congr (fun a ha => ?_) (fun a ha => ?_)
      · have hne : a ≠ n := fun heq => hj (hr.list_unique (heq ▸ ha) hn)
        have hnot : (h.nodes n).next ≠ some a := fun heq => hj (hr.list_unique ha (hfirst heq))
        simp [hne, hnot]
      · have hne : a ≠ n := fun heq => hj (hr.list_unique (heq ▸ ha) hn)
        have hnot : (h.nodes n).previous ≠ some a := fun heq =>
          hj (hr.list_unique ha (hlast heq))
        simp [hne, hnot]
  · by_cases hj : j = i
    · subst hj
      simp [Heap.unlink, hr.count, hsplit]
    · simp [Heap.unlink, hj, hr.count]
  · have hcases := hr.owner m j
    by_cases hm : m = n
    · subst hm
      by_cases hj : j = i
      · subst hj
        simpa [Heap.unlink] using hn_out
      · have hnot : m ∉ c j := fun hmem => hj (hr.list_unique hmem hn)
        simpa [Heap.unlink, hj] using hnot
    · by_cases hj : j = i
      · subst hj
        rw [hsplit] at hcases
        simpa [Heap.unlink, hm] using hcases
      · simpa [Heap.unlink, hm, hj] using hcases
  · by_cases hmn : m = n
    · simp [Heap.unlink, hmn]
    · have hown : (h.nodes m).owner = none := by simpa [Heap.unlink, hmn] using hm
      have hm_out := hr.owner_none.1 hown i
      have hnot : (h.nodes n).next ≠ some m := fun heq => hm_out (hfirst heq)
      have hnot' : (h.nodes n).previous ≠ some m := fun heq => hm_out (hlast heq)
      simpa [Heap.unlink, hmn, hnot, hnot'] using hr.free m hown

theorem unlink_mem (hr : Represents h c) (hn : n ∈ c i) :
    Represents (h.unlink i n) (Function.update c i ((c i).erase n)) := by
  obtain ⟨l₁, l₂, hsplit⟩ := List.append_of_mem hn
  have hnodup : (l₁ ++ n :: l₂).Nodup := hsplit ▸ hr.nodup
  have hout : n ∉ l₁ := fun hmem =>
    (List.nodup_append.1 hnodup).2.2 n hmem n List.mem_cons_self rfl
  rw [hsplit, List.erase_append_right _ hout, List.erase_cons_head]
  exact hr.unlink hsplit

end Represents

end DoublyLinked
