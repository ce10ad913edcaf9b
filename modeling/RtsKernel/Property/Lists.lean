import Mathlib.Data.Fintype.Card
import RtsKernel.Library.Transition
import RtsKernel.Model.ReadySet

/-!
# The intrusive list is a finite sequence

What the three operations of `intrusive_list.c` do in a heap whose lists are the sequences `c`: a
call whose checks hold edits one sequence, any other call changes nothing.

## Main results

* `IntrusiveList.pushBack_represents`, `insertBefore_represents`, `remove_represents`: each
  operation where its checks hold.
* `intrusive_lists_refine_sequences`: every sequence of calls, with any arguments.
-/

namespace RtsKernel

namespace IntrusiveList

open DoublyLinked

variable {ι ν : Type} {h : Heap ι ν} {c : ι → List ν}
  {i : ι} {n position : ν} {sizeMax : Nat}

theorem previousAgrees_of_mem (hr : Represents h c) (hn : n ∈ c i) : PreviousAgrees h i n := by
  obtain ⟨l₁, l₂, hsplit⟩ := List.append_of_mem hn
  have hprev := (hr.neighbours hsplit).1
  rw [PreviousAgrees, hprev]
  obtain rfl | ⟨l, b, rfl⟩ := List.eq_nil_or_concat' l₁
  · simp [hr.head_eq, hsplit]
  · have hb : c i = l ++ b :: (n :: l₂) := by simp [hsplit]
    have hnext : (h.nodes b).next = some n := (hr.neighbours hb).2
    have howner : (h.nodes b).owner = some i := (hr.owner b i).2 (by simp [hb])
    simp [hnext, howner]

theorem nextAgrees_of_mem (hr : Represents h c) (hn : n ∈ c i) : NextAgrees h i n := by
  obtain ⟨l₁, l₂, hsplit⟩ := List.append_of_mem hn
  have hnext := (hr.neighbours hsplit).2
  rw [NextAgrees, hnext]
  cases l₂ with
  | nil => simp [hr.tail_eq, hsplit]
  | cons b l =>
    have hb : c i = (l₁ ++ [n]) ++ b :: l := by simp [hsplit]
    have hprev : (h.nodes b).previous = some n := by simpa using (hr.neighbours hb).1
    have howner : (h.nodes b).owner = some i := (hr.owner b i).2 (by simp [hb])
    simp [hprev, howner]

variable [DecidableEq ι]

theorem endpointsAreValid_of_represents (hr : Represents h c) (i : ι) :
    endpointsAreValid h i = true := by
  have hcount := hr.count i
  have hhead : (h.lists i).head = (c i).head? := hr.head_eq
  have htail : (h.lists i).tail = (c i).getLast? := hr.tail_eq
  by_cases hnil : c i = []
  · simp [endpointsAreValid, hcount, hhead, htail, hnil]
  · -- the first node has nothing before it, the last one nothing after it
    have hfirst : c i = [] ++ (c i).head hnil :: (c i).tail := (List.cons_head_tail hnil).symm
    have hlast : c i = (c i).dropLast ++ (c i).getLast hnil :: [] :=
      (List.dropLast_append_getLast hnil).symm
    have hprev : (h.nodes ((c i).head hnil)).previous = none := (hr.neighbours hfirst).1
    have hnext : (h.nodes ((c i).getLast hnil)).next = none := (hr.neighbours hlast).2
    have howner := (hr.owner _ i).2 (List.head_mem hnil)
    have howner' := (hr.owner _ i).2 (List.getLast_mem hnil)
    rw [List.head?_eq_some_head hnil] at hhead
    rw [List.getLast?_eq_some_getLast hnil] at htail
    simp [endpointsAreValid, hcount, hhead, htail, hnil, hprev, hnext, howner, howner']

variable [DecidableEq ν]

/-- Pushing a node that is in no list appends it. -/
theorem pushBack_represents (hr : Represents h c) (hfree : (h.nodes n).owner = none)
    (hroom : (c i).length < sizeMax) :
    ∃ h', pushBack sizeMax h i n = (h', true) ∧
      Represents h' (Function.update c i (c i ++ [n])) := by
  obtain ⟨hprev, hnext⟩ := hr.free n hfree
  have hlink : Represents (h.link i (h.lists i).tail n none)
      (Function.update c i (c i ++ [n])) := by
    rw [hr.tail_eq]
    exact hr.link hfree (List.append_nil (c i)).symm
  refine ⟨_, ?_, hlink⟩
  have hchecks : endpointsAreValid h i ∧ (h.nodes n).owner = none ∧
      (h.nodes n).previous = none ∧ (h.nodes n).next = none ∧ (h.lists i).count < sizeMax :=
    ⟨endpointsAreValid_of_represents hr i, hfree, hprev, hnext, by rwa [hr.count]⟩
  rw [pushBack, if_pos hchecks]
  exact Prod.ext rfl (endpointsAreValid_of_represents hlink i)

theorem pushBack_refused (hbad : (h.nodes n).owner ≠ none ∨ sizeMax ≤ (h.lists i).count) :
    pushBack sizeMax h i n = (h, false) := by
  refine if_neg ?_
  rintro ⟨-, hfree, -, -, hroom⟩
  obtain hbad | hbad := hbad
  · exact hbad hfree
  · omega

/-- Inserting a node that is in no list before a member of a list. -/
theorem insertBefore_represents {l₁ l₂ : List ν} (hr : Represents h c)
    (hfree : (h.nodes n).owner = none) (hsplit : c i = l₁ ++ position :: l₂)
    (hroom : (c i).length < sizeMax) :
    ∃ h', insertBefore sizeMax h i position n = (h', true) ∧
      Represents h' (Function.update c i (l₁ ++ n :: position :: l₂)) := by
  obtain ⟨hprev, hnext⟩ := hr.free n hfree
  have hmem : position ∈ c i := by simp [hsplit]
  have hlink : Represents (h.link i (h.nodes position).previous n (some position))
      (Function.update c i (l₁ ++ n :: position :: l₂)) := by
    rw [(hr.neighbours hsplit).1]
    exact hr.link hfree hsplit
  refine ⟨_, ?_, hlink⟩
  have hchecks : endpointsAreValid h i ∧ (h.nodes position).owner = some i ∧
      (h.nodes n).owner = none ∧ (h.nodes n).previous = none ∧ (h.nodes n).next = none ∧
      (h.lists i).count < sizeMax ∧ PreviousAgrees h i position :=
    ⟨endpointsAreValid_of_represents hr i, (hr.owner position i).2 hmem, hfree, hprev, hnext,
      by rwa [hr.count], previousAgrees_of_mem hr hmem⟩
  rw [insertBefore, if_pos hchecks]
  exact Prod.ext rfl (endpointsAreValid_of_represents hlink i)

theorem insertBefore_refused (hbad : (h.nodes n).owner ≠ none ∨
    (h.nodes position).owner ≠ some i ∨ sizeMax ≤ (h.lists i).count) :
    insertBefore sizeMax h i position n = (h, false) := by
  refine if_neg ?_
  rintro ⟨-, howner, hfree, -, -, hroom, -⟩
  obtain hbad | hbad | hbad := hbad
  · exact hbad hfree
  · exact hbad howner
  · omega

/-- Removing a member of a list. -/
theorem remove_represents (hr : Represents h c) (hn : n ∈ c i) :
    ∃ h', remove h i n = (h', true) ∧ Represents h' (Function.update c i ((c i).erase n)) := by
  have hunlink := hr.unlink_mem hn
  refine ⟨_, ?_, hunlink⟩
  have hchecks : endpointsAreValid h i ∧ (h.nodes n).owner = some i ∧ 0 < (h.lists i).count ∧
      PreviousAgrees h i n ∧ NextAgrees h i n :=
    ⟨endpointsAreValid_of_represents hr i, (hr.owner n i).2 hn,
      by rw [hr.count]; exact List.length_pos_of_mem hn, previousAgrees_of_mem hr hn,
      nextAgrees_of_mem hr hn⟩
  rw [remove, if_pos hchecks]
  exact Prod.ext rfl (endpointsAreValid_of_represents hunlink i)

theorem remove_refused (hother : (h.nodes n).owner ≠ some i) : remove h i n = (h, false) := by
  refine if_neg ?_
  rintro ⟨-, howner, -⟩
  exact hother howner

end IntrusiveList

/-! ## Sequences of calls -/

/-- The calls on the lists of a heap. -/
inductive ListOp (ι ν : Type) where
  | pushBack (list : ι) (node : ν)
  | insertBefore (list : ι) (position node : ν)
  | remove (list : ι) (node : ν)

namespace ListOp

open DoublyLinked

variable {ι ν : Type}

/-- The list a call names. -/
def list : ListOp ι ν → ι
  | .pushBack i _ | .insertBefore i _ _ | .remove i _ => i

/-- The checks of a call on the owners of its node and its position. -/
def OwnersAgree (h : Heap ι ν) : ListOp ι ν → Prop
  | .pushBack _ n => (h.nodes n).owner = none
  | .insertBefore i position n => (h.nodes position).owner = some i ∧ (h.nodes n).owner = none
  | .remove i n => (h.nodes n).owner = some i

/-- The same checks on the sequences: a node to link is in no list, a position or a node to remove
is in the list that the call names. -/
def Admitted (c : ι → List ν) : ListOp ι ν → Prop
  | .pushBack _ n => ∀ j, n ∉ c j
  | .insertBefore i position n => position ∈ c i ∧ ∀ j, n ∉ c j
  | .remove i n => n ∈ c i

variable {h : Heap ι ν} {c : ι → List ν} {sizeMax : Nat}

theorem ownersAgree_iff (hr : Represents h c) (op : ListOp ι ν) :
    op.OwnersAgree h ↔ op.Admitted c := by
  cases op with
  | pushBack i n => exact hr.owner_none
  | insertBefore i position n => exact and_congr (hr.owner position i) hr.owner_none
  | remove i n => exact hr.owner n i

/-- A node that is in no list finds room in every list. -/
theorem length_lt_of_free (hmem : ∀ l : List ν, l.Nodup → l.length ≤ sizeMax)
    (hr : Represents h c) {n : ν} (hfree : (h.nodes n).owner = none) (i : ι) :
    (c i).length < sizeMax := by
  have hout : n ∉ c i := hr.owner_none.1 hfree i
  exact hmem (n :: c i) (List.nodup_cons.2 ⟨hout, hr.nodup⟩)

variable [DecidableEq ι] [DecidableEq ν]

/-- Append, insert before the position, delete. -/
def edit : ListOp ι ν → List ν → List ν
  | .pushBack _ n, l => l ++ [n]
  | .insertBefore _ position n, l => l.insertIdx (l.idxOf position) n
  | .remove _ n, l => l.erase n

open Classical in
/-- One call on the sequences: it edits the sequence of one list, or is refused. -/
noncomputable def specify (c : ι → List ν) (op : ListOp ι ν) : (ι → List ν) × Bool :=
  if op.Admitted c then (Function.update c op.list (op.edit (c op.list)), true) else (c, false)

/-- One call on the heap, and whether all its checks held. -/
def run (sizeMax : Nat) (h : Heap ι ν) : ListOp ι ν → Heap ι ν × Bool
  | .pushBack i n => IntrusiveList.pushBack sizeMax h i n
  | .insertBefore i position n => IntrusiveList.insertBefore sizeMax h i position n
  | .remove i n => IntrusiveList.remove h i n

theorem insertIdx_idxOf {l₁ l₂ : List ν} {position : ν} (hout : position ∉ l₁) (n : ν) :
    (l₁ ++ position :: l₂).insertIdx ((l₁ ++ position :: l₂).idxOf position) n =
      l₁ ++ n :: position :: l₂ := by
  induction l₁ with
  | nil => simp
  | cons a l ih =>
    obtain ⟨hne, hout⟩ := not_or.1 (mt List.mem_cons.2 hout)
    rw [List.cons_append, List.idxOf_cons_ne _ (Ne.symm hne), List.insertIdx_succ_cons, ih hout,
      List.cons_append]

/-- A call whose owner checks pass edits one sequence. -/
theorem run_admitted (hmem : ∀ l : List ν, l.Nodup → l.length ≤ sizeMax) (hr : Represents h c)
    {op : ListOp ι ν} (hop : op.OwnersAgree h) :
    (op.run sizeMax h).2 = true ∧
      Represents (op.run sizeMax h).1 (Function.update c op.list (op.edit (c op.list))) := by
  cases op with
  | pushBack i n =>
    obtain ⟨h', hrun, hr'⟩ :=
      IntrusiveList.pushBack_represents hr hop (length_lt_of_free hmem hr hop i)
    simp only [run, hrun]
    exact ⟨trivial, hr'⟩
  | insertBefore i position n =>
    obtain ⟨hpos, hfree⟩ := hop
    obtain ⟨l₁, l₂, hsplit⟩ := List.append_of_mem ((hr.owner position i).1 hpos)
    obtain ⟨h', hrun, hr'⟩ :=
      IntrusiveList.insertBefore_represents hr hfree hsplit (length_lt_of_free hmem hr hfree i)
    have hout : position ∉ l₁ := by
      intro hin
      have hnodup : (l₁ ++ position :: l₂).Nodup := hsplit ▸ hr.nodup
      exact List.disjoint_of_nodup_append hnodup hin List.mem_cons_self
    simp only [run, hrun, list, edit, hsplit, insertIdx_idxOf hout]
    exact ⟨trivial, hr'⟩
  | remove i n =>
    obtain ⟨h', hrun, hr'⟩ := IntrusiveList.remove_represents hr ((hr.owner n i).1 hop)
    simp only [run, hrun]
    exact ⟨trivial, hr'⟩

/-- A call whose owner checks fail writes nothing. -/
theorem run_refused {op : ListOp ι ν} (hop : ¬ op.OwnersAgree h) :
    op.run sizeMax h = (h, false) := by
  cases op with
  | pushBack i n => exact IntrusiveList.pushBack_refused (.inl hop)
  | insertBefore i position n =>
    refine IntrusiveList.insertBefore_refused ?_
    by_cases hpos : (h.nodes position).owner = some i
    · exact .inl fun hfree => hop ⟨hpos, hfree⟩
    · exact .inr (.inl hpos)
  | remove i n => exact IntrusiveList.remove_refused hop

theorem run_simulates (hmem : ∀ l : List ν, l.Nodup → l.length ≤ sizeMax) (op : ListOp ι ν)
    (hr : Represents h c) :
    Represents (op.run sizeMax h).1 (op.specify c).1 ∧
      (op.run sizeMax h).2 = (op.specify c).2 := by
  unfold specify
  by_cases hop : op.OwnersAgree h
  · obtain ⟨hpass, hr'⟩ := run_admitted hmem hr hop
    rw [if_pos ((ownersAgree_iff hr op).1 hop)]
    exact ⟨hr', hpass⟩
  · rw [if_neg (mt (ownersAgree_iff hr op).2 hop), run_refused hop]
    exact ⟨hr, rfl⟩

end ListOp

open DoublyLinked Transition in
/-- Any calls on any lists and nodes of a well-formed heap, which has room for at most `sizeMax`
nodes: the heap stays well formed and its lists are the sequences that appends, insertions and
deletions make of the initial ones. In every heap on the way, a call whose owner checks pass edits
the sequence of its list alone, and any other call changes nothing. -/
theorem intrusive_lists_refine_sequences {ι ν : Type} [DecidableEq ι] [DecidableEq ν]
    (sizeMax : Nat) (hmem : ∀ l : List ν, l.Nodup → l.length ≤ sizeMax) (h : Heap ι ν)
    (c : ι → List ν) (hr : Represents h c) (ops : List (ListOp ι ν)) :
    let final := serve (fun h op => ListOp.run sizeMax h op) h ops
    let spec := serve ListOp.specify c ops
    Represents final.1 spec.1 ∧ final.2 = spec.2 ∧
    ∀ op : ListOp ι ν,
      (op.OwnersAgree final.1 → (op.run sizeMax final.1).2 = true ∧
        Represents (op.run sizeMax final.1).1
          (Function.update spec.1 op.list (op.edit (spec.1 op.list)))) ∧
      (¬ op.OwnersAgree final.1 → op.run sizeMax final.1 = (final.1, false)) := by
  intro final spec
  obtain ⟨hfinal, hanswers⟩ : Represents final.1 spec.1 ∧ final.2 = spec.2 :=
    serve_simulation (fun op hr => ListOp.run_simulates hmem op hr) hr ops
  exact ⟨hfinal, hanswers, fun op => ⟨ListOp.run_admitted hmem hfinal, ListOp.run_refused⟩⟩

/-- Three nodes that no list owns, and lists that are all empty. -/
def looseNodes : DoublyLinked.Heap Nat (Fin 3) :=
  ⟨fun _ => ⟨none, none, none⟩, fun _ => ⟨none, none, 0⟩⟩

theorem looseNodes_represents : DoublyLinked.Represents looseNodes fun _ => [] :=
  DoublyLinked.represents_nil (fun _ => rfl) fun _ => rfl

/-- A list is built from both ends, two misuses of another list are refused, and its middle node is
taken out. -/
theorem intrusive_lists_refine_sequences_three :
    let ops : List (ListOp Nat (Fin 3)) := [.pushBack 0 0, .pushBack 0 1, .insertBefore 0 1 2,
      .pushBack 5 2, .remove 5 0, .remove 0 2]
    (Transition.serve (fun h op => ListOp.run 3 h op) looseNodes ops).2 =
      (Transition.serve ListOp.specify (fun _ => []) ops).2 ∧
    (Transition.serve (fun h op => ListOp.run 3 h op) looseNodes ops).2 =
      [true, true, true, false, false, true] :=
  ⟨(intrusive_lists_refine_sequences 3
    (fun l hl => by simpa using List.Nodup.length_le_card hl) looseNodes _
    looseNodes_represents _).2.1,
    by decide +kernel⟩

end RtsKernel
