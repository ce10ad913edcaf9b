import RtsKernel.Model.ReadySet

/-!
# Selection and validation of the ready set

The two loops of `rts_ready_peek_highest` are one scan from the highest bit down; the validator
walks every queue in whatever state memory is.

## Main results

- `ready_validate_sound`: what the validator accepts is a family of disjoint chains, and selection
  from it is right if and only if no bit is set beyond the last priority.
- `ready_stray_bit_accepted`: the validator does not look at those bits.
-/

namespace RtsKernel

open DoublyLinked

namespace ReadyMemory

/-! ## Bits and words -/

theorem getLsbD_one_shiftLeft {b i : Nat} (hi : i < 32) :
    (1#32 <<< b).getLsbD i = decide (i = b) := by
  simp only [BitVec.getLsbD_shiftLeft, BitVec.getLsbD_one]
  grind

theorem and_one_shiftLeft_eq_zero {w : BitVec 32} {b : Nat} (hb : b < 32) :
    w &&& (1#32 <<< b) = 0 ↔ w.getLsbD b = false := by
  constructor
  · intro h
    have hbit := congrArg (fun v => BitVec.getLsbD v b) h
    simpa [getLsbD_one_shiftLeft hb] using hbit
  · intro h
    apply BitVec.eq_of_getLsbD_eq
    intro i hi
    rw [BitVec.getLsbD_and, getLsbD_one_shiftLeft hi]
    by_cases hib : i = b
    · simp [hib, h]
    · simp [hib]

variable {ι ν τ : Type} {L : ReadyLayout ι ν τ} {priorityCount : Nat} {m : ReadyMemory ι ν τ}
  {p q : Nat} {t : τ}

/-- The bit of a priority. -/
def bit (m : ReadyMemory ι ν τ) (p : Nat) : Bool := (m.readyBitmap (p / 32)).getLsbD (p % 32)

theorem lt_bits (hp : p < priorityCount) : p < readyBitmapWords priorityCount * 32 := by
  rw [readyBitmapWords]
  omega

/-- Setting the bit of a priority sets no other. -/
theorem bit_set : (Function.update m.readyBitmap (p / 32)
      (m.readyBitmap (p / 32) ||| readyBitMask p) (q / 32)).getLsbD (q % 32) =
    (m.bit q || decide (q = p)) := by
  by_cases hw : q / 32 = p / 32
  · have heq : q % 32 = p % 32 ↔ q = p := by omega
    rw [hw, Function.update_self, BitVec.getLsbD_or, readyBitMask,
      getLsbD_one_shiftLeft (Nat.mod_lt _ (by omega)), bit, hw]
    simp [heq]
  · have hne : q ≠ p := fun h => hw (by rw [h])
    simp [hw, hne, bit]

/-- Clearing the bit of a priority clears no other. -/
theorem bit_clear : (Function.update m.readyBitmap (p / 32)
      (m.readyBitmap (p / 32) &&& ~~~readyBitMask p) (q / 32)).getLsbD (q % 32) =
    (m.bit q && !decide (q = p)) := by
  by_cases hw : q / 32 = p / 32
  · have heq : q % 32 = p % 32 ↔ q = p := by omega
    have hlt : q % 32 < 32 := Nat.mod_lt _ (by omega)
    rw [hw, Function.update_self, BitVec.getLsbD_and, BitVec.getLsbD_not, readyBitMask,
      getLsbD_one_shiftLeft hlt, bit, hw]
    simp [heq, hlt]
  · have hne : q ≠ p := fun h => hw (by rw [h])
    simp [hw, hne, bit]

/-- The largest number below a bound with a property. -/
def highestBit (P : Nat → Bool) : Nat → Option Nat
  | 0 => none
  | n + 1 => if P n then some n else highestBit P n

/-- Numbers without the property do not matter at the top. -/
theorem highestBit_of_false {P : Nat → Bool} {n k : Nat}
    (h : ∀ p, n ≤ p → p < n + k → P p = false) : highestBit P (n + k) = highestBit P n := by
  induction k with
  | zero => rfl
  | succ k ih =>
    rw [← Nat.add_assoc, highestBit, h (n + k) (by omega) (by omega),
      ih fun p hp hlt => h p hp (by omega)]
    rfl

theorem highestBit_eq_some {P : Nat → Bool} {n : Nat} :
    highestBit P n = some p ↔ p < n ∧ P p = true ∧ ∀ q, p < q → q < n → P q = false := by
  induction n with
  | zero => simp [highestBit]
  | succ n ih => grind [highestBit]

theorem highestBit_eq_none {P : Nat → Bool} {n : Nat} :
    highestBit P n = none ↔ ∀ q < n, P q = false := by
  induction n with
  | zero => simp [highestBit]
  | succ n ih => grind [highestBit]

variable [DecidableEq ι] [DecidableEq ν]

/-- What the scan answers from the highest set bit below `n`. -/
def answer (L : ReadyLayout ι ν τ) (priorityCount : Nat) (m : ReadyMemory ι ν τ) (n : Nat) :
    Option (Option τ) :=
  match highestBit m.bit n with
  | none => some none
  | some p => (peekQueue L priorityCount m p).map some

theorem answer_succ {n : Nat} : answer L priorityCount m (n + 1) =
    if m.bit n then (peekQueue L priorityCount m n).map some else answer L priorityCount m n := by
  grind [answer, highestBit]

/-- A scan over the low bits of a word, continued over the words below it. -/
theorem peekBits_eq {w b : Nat} (hb : b ≤ 32) :
    (match peekBits L priorityCount m w b with
      | some none => answer L priorityCount m (w * 32)
      | found => found) = answer L priorityCount m (w * 32 + b) := by
  induction b with
  | zero => rfl
  | succ b ih =>
    have hbit : m.bit (w * 32 + b) = (m.readyBitmap w).getLsbD b := by
      have hw : (w * 32 + b) / 32 = w := by omega
      have hr : (w * 32 + b) % 32 = b := by omega
      rw [bit, hw, hr]
    have hzero : m.readyBitmap w &&& (1#32 <<< b) = 0 ↔ _ := and_one_shiftLeft_eq_zero hb
    rw [← Nat.add_assoc, answer_succ, peekBits, hbit]
    by_cases hset : (m.readyBitmap w).getLsbD b = false
    · rw [if_pos (hzero.2 hset), hset]
      exact ih (by omega)
    · rw [if_neg (fun h => hset (hzero.1 h)), if_pos (by simpa using hset)]
      cases peekQueue L priorityCount m (w * 32 + b) <;> rfl

/-- The two loops together are one scan over all bits of the words, from the highest. -/
theorem peekWords_eq {w : Nat} :
    peekWords L priorityCount m w = answer L priorityCount m (w * 32) := by
  induction w with
  | zero => rfl
  | succ w ih =>
    rw [Nat.succ_mul, ← peekBits_eq le_rfl, peekWords, ih]
    split
    · -- a zero word is skipped; a scan of it would find nothing
      rename_i hzero
      rw [peekBits_eq le_rfl, answer, answer, highestBit_of_false]
      intro p hp hlt
      have hw : p / 32 = w := by omega
      rw [bit, hw, hzero]
      simp
    · rfl

theorem peekHighest_eq : peekHighest L priorityCount m =
    answer L priorityCount m (readyBitmapWords priorityCount * 32) := peekWords_eq

/-! ## The validator -/

/-- The nodes of `tasks` are the whole queue of a priority, in order. -/
structure Queue (L : ReadyLayout ι ν τ) (m : ReadyMemory ι ν τ) (p : Nat) (tasks : List τ) :
    Prop where
  isList : IsList (fun n => (m.heap.nodes n).previous) (fun n => (m.heap.nodes n).next)
    (m.heap.lists (L.priorityQueue p)).head (m.heap.lists (L.priorityQueue p)).tail
    (tasks.map L.readyNode)
  count : (m.heap.lists (L.priorityQueue p)).count = tasks.length
  owner : ∀ t ∈ tasks, (m.heap.nodes (L.readyNode t)).owner = some (L.priorityQueue p)
  object : ∀ t ∈ tasks, m.object (L.readyNode t) = some t
  priority : ∀ t ∈ tasks, m.priority t = p

/-- A walk that meets no wrong node and ends at the end of the list has passed a chain of tasks. -/
theorem walkQueue_eq_some {capacity count total : Nat} {node previous last : Option ν}
    (h : walkQueue L capacity m p node previous count = some (none, last, total)) :
    ∃ tasks : List τ,
      node = (tasks.map L.readyNode).head? ∧
      Segment (fun n => (m.heap.nodes n).previous) (fun n => (m.heap.nodes n).next) previous
        (tasks.map L.readyNode) none ∧
      last = (tasks.map L.readyNode).getLast?.or previous ∧
      total = count + tasks.length ∧
      ∀ t ∈ tasks, (m.heap.nodes (L.readyNode t)).owner = some (L.priorityQueue p) ∧
        m.object (L.readyNode t) = some t ∧ m.priority t = p := by
  fun_induction walkQueue L capacity m p node previous count with
  | case1 previous count =>
    simp only [Option.some.injEq, Prod.mk.injEq, true_and] at h
    exact ⟨[], rfl, trivial, by simp [h.1], by simp [h.2], by simp⟩
  | case2 previous count n hle hgood ih =>
    obtain ⟨tasks, hnext, hseg, hlast, htotal, htasks⟩ := ih h
    obtain ⟨howner, hprevious, t, hobject, hnode, hpriority⟩ := hgood
    have hobject' : m.object n = some t := hobject
    subst hnode
    refine ⟨t :: tasks, rfl, ⟨hprevious, by simpa using hnext, hseg⟩, ?_, ?_, ?_⟩
    · rw [hlast, List.map_cons, List.getLast?_cons]
      cases (tasks.map L.readyNode).getLast? <;> rfl
    · rw [htotal, List.length_cons]
      omega
    · intro u hu
      obtain rfl | hu := List.mem_cons.1 hu
      · exact ⟨howner, hobject', hpriority⟩
      · exact htasks u hu
  | case3 => simp at h
  | case4 => simp at h

/-- A queue that the validator accepts is a chain of tasks of that priority, and its bit says
whether it is empty. -/
theorem exists_queue {capacity : Nat} (h : queueIsValid L capacity m p = true) :
    ∃ tasks, Queue L m p tasks ∧ (m.bit p = true ↔ tasks ≠ []) := by
  rw [queueIsValid] at h
  split at h
  · exact absurd h Bool.false_ne_true
  · rename_i node previous count hwalk
    obtain ⟨rfl, hcount, hprevious, hbit⟩ := of_decide_eq_true h
    obtain ⟨tasks, hhead, hseg, hlast, hlen, htasks⟩ := walkQueue_eq_some hwalk
    refine ⟨tasks, ⟨⟨hseg, hhead, ?_, segment_nodup hseg⟩, ?_, fun t ht => (htasks t ht).1,
      fun t ht => (htasks t ht).2.1, fun t ht => (htasks t ht).2.2⟩, ?_⟩
    · rw [← hprevious, hlast, Option.or_none]
    · omega
    · have hzero : m.readyBitmap (p / 32) &&& (1#32 <<< (p % 32)) = 0 ↔ m.bit p = false :=
        and_one_shiftLeft_eq_zero (Nat.mod_lt _ (by omega))
      rw [Nat.zero_add] at hlen
      grind

/-- The head of a non-empty queue passes every check of the selection. -/
theorem Queue.peek {tasks : List τ} (h : Queue L m p (t :: tasks)) (hp : p < priorityCount) :
    peekQueue L priorityCount m p = some t := by
  have hhead : (m.heap.lists (L.priorityQueue p)).head = some (L.readyNode t) := h.isList.head_eq
  have hcount : 0 < (m.heap.lists (L.priorityQueue p)).count := by
    rw [h.count]
    exact Nat.succ_pos _
  have ht : t ∈ t :: tasks := List.mem_cons_self
  simp [peekQueue, hp, hcount, hhead, h.owner t ht, h.object t ht, h.priority t ht]

/-- Selection over queues whose bits say which of them are empty, with no bit beyond them. -/
theorem peekHighest_of_queues {queues : Nat → List τ}
    (hqueue : ∀ p < priorityCount, Queue L m p (queues p) ∧ (m.bit p = true ↔ queues p ≠ []))
    (hstray : ∀ p, priorityCount ≤ p → p < readyBitmapWords priorityCount * 32 → m.bit p = false) :
    (∀ p < priorityCount, queues p ≠ [] → (∀ q, p < q → q < priorityCount → queues q = []) →
      peekHighest L priorityCount m = some (queues p).head?) ∧
    (peekHighest L priorityCount m = some none ↔ ∀ p < priorityCount, queues p = []) := by
  have hwords : readyBitmapWords priorityCount * 32 =
      priorityCount + (readyBitmapWords priorityCount * 32 - priorityCount) := by
    rw [readyBitmapWords]
    omega
  have hscan : peekHighest L priorityCount m = answer L priorityCount m priorityCount := by
    rw [peekHighest_eq, answer, answer, hwords, highestBit_of_false fun p hp hlt =>
      hstray p hp (by omega)]
  have hbit : ∀ p < priorityCount, m.bit p = false ↔ queues p = [] := by
    intro p hp
    rw [← Bool.not_eq_true, (hqueue p hp).2, not_not]
  have htop : ∀ p < priorityCount, queues p ≠ [] →
      (∀ q, p < q → q < priorityCount → queues q = []) →
      peekHighest L priorityCount m = some (queues p).head? := by
    intro p hp hne habove
    have hhigh : highestBit m.bit priorityCount = some p :=
      highestBit_eq_some.2 ⟨hp, (hqueue p hp).2.2 hne, fun q hpq hq =>
        (hbit q hq).2 (habove q hpq hq)⟩
    obtain ⟨t, tasks, htasks⟩ := List.exists_cons_of_ne_nil hne
    have hpeek := (htasks ▸ (hqueue p hp).1 : Queue L m p (t :: tasks)).peek hp
    rw [hscan, answer, hhigh, htasks]
    simp [hpeek]
  refine ⟨htop, fun hnone p hp => ?_, fun hempty => ?_⟩
  · cases hhigh : highestBit m.bit priorityCount with
    | none => exact (hbit p hp).1 (highestBit_eq_none.1 hhigh p hp)
    | some q =>
      obtain ⟨hq, hset, habove⟩ := highestBit_eq_some.1 hhigh
      have hne : queues q ≠ [] := (hqueue q hq).2.1 hset
      rw [htop q hq hne fun r hqr hr => (hbit r hr).1 (habove r hqr hr)] at hnone
      simp [hne] at hnone
  · have hhigh : highestBit m.bit priorityCount = none :=
      highestBit_eq_none.2 fun q hq => (hbit q hq).2 (hempty q hq)
    rw [hscan, answer, hhigh]

/-- The selection passes its own checks and answers the head of the highest non-empty queue, or NULL
exactly when all queues are empty. -/
structure Selects (L : ReadyLayout ι ν τ) (priorityCount : Nat) (m : ReadyMemory ι ν τ)
    (queues : Nat → List τ) : Prop where
  top : ∀ p < priorityCount, queues p ≠ [] → (∀ q, p < q → q < priorityCount → queues q = []) →
    peekHighest L priorityCount m = some (queues p).head?
  null : peekHighest L priorityCount m = some none ↔ ∀ p < priorityCount, queues p = []

/-- A bit of the bitmap words is set at or beyond the last priority. -/
def StrayBit (priorityCount : Nat) (m : ReadyMemory ι ν τ) : Prop :=
  ∃ p, priorityCount ≤ p ∧ p < readyBitmapWords priorityCount * 32 ∧ m.bit p = true

/-- A selection that answers finds no bit out of range. -/
theorem Selects.not_strayBit {queues : Nat → List τ} (h : Selects L priorityCount m queues) :
    ¬ StrayBit priorityCount m := by
  rintro ⟨p, hcount, hp, hbit⟩
  -- the scan starts at the top, so the bit it meets first is out of range as well
  have hnone : peekHighest L priorityCount m = none := by
    obtain ⟨q, hq⟩ : ∃ q, highestBit m.bit (readyBitmapWords priorityCount * 32) = some q := by
      by_contra hno
      have hall :=
        highestBit_eq_none.1 (Option.eq_none_iff_forall_ne_some.2 fun q hq => hno ⟨q, hq⟩)
      simp [hall p hp] at hbit
    have hpq : p ≤ q := by
      by_contra hlt
      simp [(highestBit_eq_some.1 hq).2.2 p (by omega) hp] at hbit
    rw [peekHighest_eq, answer, hq]
    simp [peekQueue, show ¬ q < priorityCount by omega]
  cases htop : highestBit (fun p => decide (queues p ≠ [])) priorityCount with
  | none =>
    have hempty : ∀ p < priorityCount, queues p = [] := by simpa using highestBit_eq_none.1 htop
    simp [h.null.2 hempty] at hnone
  | some q =>
    obtain ⟨hq, hne, habove⟩ := highestBit_eq_some.1 htop
    simp [h.top q hq (by simpa using hne) (by simpa using habove)] at hnone

end ReadyMemory

open ReadyMemory in
/-- In any memory that the validator accepts, every queue is a chain of distinct tasks of its
priority and no task is in two queues; and the selection passes its own checks and answers the head
of the highest non-empty queue, or NULL exactly when all queues are empty, if and only if no bit is
set beyond the last priority. -/
theorem ready_validate_sound {ι ν τ : Type} [DecidableEq ι] [DecidableEq ν]
    (L : ReadyLayout ι ν τ) (priorityCount capacity : Nat) (m : ReadyMemory ι ν τ)
    (hvalid : validate L priorityCount capacity m = true) :
    ∃ queues : Nat → List τ,
      (∀ p < priorityCount, Queue L m p (queues p) ∧ (queues p).Nodup) ∧
      (∀ p < priorityCount, ∀ q < priorityCount, ∀ t ∈ queues p, t ∈ queues q → p = q) ∧
      (Selects L priorityCount m queues ↔ ¬ StrayBit priorityCount m) := by
  have hall : ∀ p, ∃ tasks, p < priorityCount →
      Queue L m p tasks ∧ (m.bit p = true ↔ tasks ≠ []) := by
    intro p
    by_cases hp : p < priorityCount
    · obtain ⟨tasks, htasks⟩ :=
        exists_queue (List.all_eq_true.1 hvalid p (List.mem_range.2 hp))
      exact ⟨tasks, fun _ => htasks⟩
    · exact ⟨[], fun h => absurd h hp⟩
  choose queues hqueue using hall
  refine ⟨queues, fun p hp => ⟨(hqueue p hp).1, ?_⟩, fun p hp q hq t ht ht' => ?_,
    Selects.not_strayBit, fun hstray => ?_⟩
  · exact (hqueue p hp).1.isList.nodup.of_map
  · exact ((hqueue p hp).1.priority t ht).symm.trans ((hqueue q hq).1.priority t ht')
  · obtain ⟨htop, hnull⟩ := peekHighest_of_queues hqueue fun p hcount hp =>
      Bool.eq_false_iff.2 fun hbit => hstray ⟨p, hcount, hp, hbit⟩
    exact ⟨htop, hnull⟩

/-- Tasks, nodes and queues named by numbers. -/
def plainLayout : ReadyLayout Nat Nat Nat where
  priorityQueue := id
  readyNode := id
  priorityQueue_injective := Function.injective_id
  readyNode_injective := Function.injective_id

/-- Task 0 is ready at priority 3, and bitmap word 0 is as given. -/
def oneReady (word : BitVec 32) : ReadyMemory Nat Nat Nat where
  heap :=
    { nodes := fun n => if n = 0 then ⟨none, none, some 3⟩ else ⟨none, none, none⟩
      lists := fun p => if p = 3 then ⟨some 0, some 0, 1⟩ else ⟨none, none, 0⟩ }
  object := fun n => if n = 0 then some 0 else none
  priority := fun _ => 3
  readyBitmap := fun w => if w = 0 then word else 0

theorem oneReady_validate {word : BitVec 32}
    (hword : ∀ p < 8, word.getLsbD p = decide (p = 3)) :
    ReadyMemory.validate plainLayout 8 1 (oneReady word) = true := by
  refine List.all_eq_true.2 fun p hp => ?_
  have hp8 : p < 8 := List.mem_range.1 hp
  have hmask : (oneReady word).readyBitmap (p / 32) &&& (1#32 <<< (p % 32)) = 0 ↔ p ≠ 3 := by
    rw [Nat.div_eq_of_lt (by omega), Nat.mod_eq_of_lt (by omega),
      ReadyMemory.and_one_shiftLeft_eq_zero (by omega)]
    change word.getLsbD p = false ↔ _
    rw [hword p hp8, decide_eq_false_iff_not]
  by_cases h3 : p = 3
  · subst h3
    simpa [ReadyMemory.queueIsValid, ReadyMemory.walkQueue, oneReady, plainLayout] using hmask
  · have hempty : (oneReady word).heap.lists (plainLayout.priorityQueue p) = ⟨none, none, 0⟩ :=
      if_neg h3
    have hclear : (oneReady word).readyBitmap (p / 32) &&& (1#32 <<< (p % 32)) = 0 := hmask.2 h3
    simpa [ReadyMemory.queueIsValid, hempty, ReadyMemory.walkQueue] using hclear

/-- Tasks 0 and 1 are ready at priority 3 and task 2 at priority 5. -/
def threeReady : ReadyMemory Nat Nat Nat where
  heap :=
    { nodes := fun n =>
        if n = 0 then ⟨none, some 1, some 3⟩ else if n = 1 then ⟨some 0, none, some 3⟩
        else if n = 2 then ⟨none, none, some 5⟩ else ⟨none, none, none⟩
      lists := fun p =>
        if p = 3 then ⟨some 0, some 1, 2⟩ else if p = 5 then ⟨some 2, some 2, 1⟩
        else ⟨none, none, 0⟩ }
  object := fun n => if n < 3 then some n else none
  priority := fun t => if t = 2 then 5 else 3
  readyBitmap := fun w => if w = 0 then 0x28#32 else 0

theorem threeReady_validate : ReadyMemory.validate plainLayout 8 3 threeReady = true := by
  simp [ReadyMemory.validate, List.range_succ, ReadyMemory.queueIsValid, ReadyMemory.walkQueue,
    threeReady, plainLayout]

/-- With eight priorities and the bits of priorities 3 and 5 set, the selection finds task 2. -/
theorem ready_validate_sound_three :
    ReadyMemory.peekHighest plainLayout 8 threeReady = some (some 2) ∧
    ¬ ReadyMemory.StrayBit 8 threeReady ∧
    ∃ queues : Nat → List Nat, ReadyMemory.Queue plainLayout threeReady 3 (queues 3) ∧
      ReadyMemory.Selects plainLayout 8 threeReady queues := by
  have hstray : ¬ ReadyMemory.StrayBit 8 threeReady := by
    have hclear : ∀ p < 32, 8 ≤ p → threeReady.bit p = false := by decide +kernel
    rintro ⟨p, hcount, hp, hbit⟩
    simp [hclear p hp hcount] at hbit
  obtain ⟨queues, hqueue, -, hselects⟩ :=
    ready_validate_sound plainLayout 8 3 threeReady threeReady_validate
  exact ⟨by decide +kernel, hstray, queues, (hqueue 3 (by decide)).1, hselects.2 hstray⟩

/-- With eight priorities and bit 9 of the last bitmap word set as well, the validator accepts
the ready set and the selection fails its own range check, although task 0 is ready. -/
theorem ready_stray_bit_accepted :
    ReadyMemory.validate plainLayout 8 1 (oneReady 0x208#32) = true ∧
    ReadyMemory.peekHighest plainLayout 8 (oneReady 0x208#32) = none :=
  ⟨oneReady_validate (by decide +kernel), by decide +kernel⟩

end RtsKernel
