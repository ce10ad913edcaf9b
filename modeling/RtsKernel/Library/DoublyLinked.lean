import Mathlib.Data.List.Induction
import Mathlib.Data.List.Nodup
import Mathlib.Logic.Function.Basic

/-!
# Doubly linked lists

`Segment prev next before l after`: the nodes of `l` are linked in order, the first one back
to `before` and the last one forward to `after`. `IsList` is a whole list with its head and
tail pointers. The two operations are linking a node in and unlinking one, at any position.
-/

namespace DoublyLinked

variable {ι : Type}

/-- The nodes of `l` are chained between `before` and `after`. -/
def Segment (prev next : ι → Option ι) : Option ι → List ι → Option ι → Prop
  | _, [], _ => True
  | before, a :: l, after =>
    prev a = before ∧ next a = l.head?.or after ∧ Segment prev next (some a) l after

/-- `l` is the list of nodes between the head and the tail pointer. -/
structure IsList (prev next : ι → Option ι) (head tail : Option ι) (l : List ι) : Prop where
  links : Segment prev next none l none
  head_eq : head = l.head?
  tail_eq : tail = l.getLast?
  nodup : l.Nodup

variable {prev next prev' next' : ι → Option ι} {before after head tail : Option ι}
  {l l₁ l₂ : List ι} {a m : ι}

theorem segment_congr (hp : ∀ a ∈ l, prev' a = prev a) (hn : ∀ a ∈ l, next' a = next a) :
    Segment prev' next' before l after ↔ Segment prev next before l after := by
  induction l generalizing before with
  | nil => simp [Segment]
  | cons a l ih =>
    simp only [Segment]
    rw [hp a (by simp), hn a (by simp),
      ih (fun b hb => hp b (by simp [hb])) (fun b hb => hn b (by simp [hb]))]

theorem segment_append : Segment prev next before (l₁ ++ l₂) after ↔
    Segment prev next before l₁ (l₂.head?.or after) ∧
    Segment prev next (l₁.getLast?.or before) l₂ after := by
  induction l₁ generalizing before with
  | nil => simp [Segment]
  | cons a l ih =>
    simp only [List.cons_append, Segment, ih, and_assoc]
    have hhead : (l ++ l₂).head?.or after = l.head?.or (l₂.head?.or after) := by
      cases l <;> simp
    have hlast : (a :: l).getLast?.or before = l.getLast?.or (some a) := by
      cases l with
      | nil => rfl
      | cons b l => simp [List.getLast?_cons]
    rw [hhead, hlast]

/-- A chain that starts from nothing cannot come back to one of its nodes. -/
theorem segment_nodup (h : Segment prev next none l after) : l.Nodup := by
  induction l using List.reverseRecOn generalizing after with
  | nil => exact List.nodup_nil
  | append_singleton l b ih =>
    obtain ⟨hchain, hb⟩ := segment_append.mp h
    have hnodup : l.Nodup := ih hchain
    refine List.nodup_append.mpr ⟨hnodup, List.nodup_singleton b, fun a ha c hc => ?_⟩
    rw [List.mem_singleton.mp hc]
    rintro rfl
    -- both occurrences have the same predecessor
    obtain ⟨l₁, l₂, rfl⟩ := List.append_of_mem ha
    obtain ⟨-, hmid⟩ := segment_append.mp hchain
    have hlast : l₁.getLast?.or none = (l₁ ++ a :: l₂).getLast?.or none :=
      hmid.1.symm.trans hb.1
    have hmem : ∀ c, (a :: l₂).getLast? = some c → l₁.getLast? = some c := by
      intro c hc
      simpa [List.getLast?_append, hc] using hlast
    obtain ⟨c, hc⟩ : ∃ c, (a :: l₂).getLast? = some c :=
      ⟨_, List.getLast?_eq_getLast_of_ne_nil (List.cons_ne_nil a l₂)⟩
    exact (List.nodup_append.mp hnodup).2.2 c (List.mem_of_getLast? (hmem c hc)) c
      (List.mem_of_getLast? hc) rfl

theorem IsList.congr (h : IsList prev next head tail l) (hp : ∀ a ∈ l, prev' a = prev a)
    (hn : ∀ a ∈ l, next' a = next a) : IsList prev' next' head tail l :=
  { h with links := (segment_congr hp hn).mpr h.links }

/-- A member is the head, or it has a predecessor. -/
theorem IsList.head_or_prev (h : IsList prev next head tail l) (ha : a ∈ l) :
    head = some a ∨ prev a ≠ none := by
  obtain ⟨l₁, l₂, rfl⟩ := List.append_of_mem ha
  obtain ⟨-, hlast⟩ := segment_append.mp h.links
  obtain rfl | ⟨l₁, b, rfl⟩ := List.eq_nil_or_concat' l₁
  · exact .inl (by rw [h.head_eq]; simp)
  · exact .inr (by rw [hlast.1]; simp)

/-- The neighbours of a member in a list split around it. -/
theorem IsList.neighbours (h : IsList prev next head tail (l₁ ++ m :: l₂)) :
    prev m = l₁.getLast? ∧ next m = l₂.head? := by
  obtain ⟨-, hm⟩ := segment_append.mp h.links
  exact ⟨by simpa using hm.1, by simpa using hm.2.1⟩

variable [DecidableEq ι]

/-- Linking a node in between two parts of a list: its neighbours point to it, the head and tail
pointers move when it becomes the first or the last. -/
theorem IsList.insert (h : IsList prev next head tail (l₁ ++ l₂)) (hm : m ∉ l₁ ++ l₂)
    (hprev : prev' m = l₁.getLast?) (hnext : next' m = l₂.head?)
    (hp : ∀ a ∈ l₁ ++ l₂, prev' a = if l₂.head? = some a then some m else prev a)
    (hn : ∀ a ∈ l₁ ++ l₂, next' a = if l₁.getLast? = some a then some m else next a) :
    IsList prev' next' (if l₁.getLast? = none then some m else head)
      (if l₂.head? = none then some m else tail) (l₁ ++ m :: l₂) := by
  obtain ⟨hlinks, hhead, htail, hnd⟩ := h
  have hnd' : (l₁ ++ m :: l₂).Nodup := by
    rw [List.nodup_middle, List.nodup_cons]
    exact ⟨hm, hnd⟩
  rw [List.nodup_append] at hnd
  obtain ⟨hnd₁, hnd₂, hdisj⟩ := hnd
  obtain ⟨hseg₁, hseg₂⟩ := segment_append.mp hlinks
  have hbefore : Segment prev' next' none l₁ (some m) := by
    obtain rfl | ⟨l, b, rfl⟩ := List.eq_nil_or_concat' l₁
    · trivial
    · have hb : b ∉ l := by
        intro hb
        rw [List.nodup_append] at hnd₁
        exact hnd₁.2.2 b hb b (by simp) rfl
      have hfirst : ∀ a ∈ l ++ [b], l₂.head? ≠ some a := fun a ha hna =>
        hdisj a ha a (List.mem_of_head? hna) rfl
      rw [segment_append] at hseg₁ ⊢
      refine ⟨(segment_congr ?_ ?_).mpr hseg₁.1, ?_, ?_, trivial⟩
      · intro a ha
        rw [hp a (by simp [ha]), if_neg (hfirst a (by simp [ha]))]
      · intro a ha
        rw [hn a (by simp [ha]), if_neg]
        simp only [List.getLast?_append, List.getLast?_singleton, Option.some_or,
          Option.some.injEq]
        rintro rfl
        exact hb ha
      · rw [hp b (by simp), if_neg (hfirst b (by simp))]
        exact hseg₁.2.1
      · rw [hn b (by simp), if_pos (by simp)]
        simp
  have hafter : Segment prev' next' (some m) l₂ none := by
    cases l₂ with
    | nil => trivial
    | cons b l =>
      have hb : b ∉ l := (List.nodup_cons.mp hnd₂).1
      have hlast : ∀ a ∈ b :: l, l₁.getLast? ≠ some a := fun a ha hla =>
        hdisj a (List.mem_of_getLast? hla) a ha rfl
      refine ⟨?_, ?_, (segment_congr ?_ ?_).mpr hseg₂.2.2⟩
      · rw [hp b (by simp), if_pos (by simp)]
      · rw [hn b (by simp), if_neg (hlast b (by simp))]
        exact hseg₂.2.1
      · intro a ha
        rw [hp a (by simp [ha]), if_neg]
        simp only [List.head?_cons, Option.some.injEq]
        rintro rfl
        exact hb ha
      · intro a ha
        rw [hn a (by simp [ha]), if_neg (hlast a (by simp [ha]))]
  refine ⟨segment_append.mpr ⟨by simpa using hbefore, ?_⟩, ?_, ?_, hnd'⟩
  · refine ⟨by simpa using hprev, by simpa using hnext, hafter⟩
  · rw [hhead]
    cases l₁ <;> simp [List.getLast?_cons]
  · rw [htail]
    cases l₂ <;> simp [List.getLast?_append, List.getLast?_cons]

/-- Appending an unlinked node at the tail. -/
theorem IsList.push (h : IsList prev next head tail l) (hm : m ∉ l) (hprev : prev' m = tail)
    (hnext : next' m = none) (hp : ∀ a ∈ l, prev' a = prev a)
    (hn : ∀ a ∈ l, next' a = if tail = some a then some m else next a) :
    IsList prev' next' (head.or (some m)) (some m) (l ++ [m]) := by
  have htail : tail = l.getLast? := h.tail_eq
  have hhead : head = l.head? := h.head_eq
  have hins : IsList prev' next' (if l.getLast? = none then some m else head) (some m)
      (l ++ [m]) := by
    have h' : IsList prev next head tail (l ++ []) := by simpa using h
    refine h'.insert (by simpa using hm) (hprev.trans htail) hnext ?_ ?_
    · simpa using hp
    · simpa [htail] using hn
  cases l with
  | nil => simpa [hhead] using hins
  | cons b l => simpa [hhead, List.getLast?_cons] using hins

/-- Unlinking a member: its neighbours are joined, the head and tail pointers moved when it was
the first or the last. -/
theorem IsList.unlink (h : IsList prev next head tail (l₁ ++ m :: l₂))
    (hp : ∀ a ∈ l₁ ++ l₂, prev' a = if next m = some a then prev m else prev a)
    (hn : ∀ a ∈ l₁ ++ l₂, next' a = if prev m = some a then next m else next a) :
    IsList prev' next' (if prev m = none then next m else head)
      (if next m = none then prev m else tail) (l₁ ++ l₂) := by
  obtain ⟨hprev, hnext⟩ := h.neighbours
  obtain ⟨hlinks, hhead, htail, hnd⟩ := h
  have hnd' : (l₁ ++ l₂).Nodup := (List.Sublist.append (List.Sublist.refl l₁)
    (List.sublist_cons_self m l₂)).nodup hnd
  rw [List.nodup_append] at hnd hnd'
  obtain ⟨hnd₁, hnd₂, hdisj⟩ := hnd'
  rw [segment_append] at hlinks
  obtain ⟨hseg₁, -, -, hseg₂⟩ := hlinks
  have hbefore : Segment prev' next' none l₁ (l₂.head?.or none) := by
    obtain rfl | ⟨l, b, rfl⟩ := List.eq_nil_or_concat' l₁
    · trivial
    · have hlast : prev m = some b := by simpa using hprev
      have hb : b ∉ l := by
        intro hb
        rw [List.nodup_append] at hnd₁
        exact hnd₁.2.2 b hb b (by simp) rfl
      have hhead₂ : ∀ a ∈ l ++ [b], next m ≠ some a := by
        intro a ha hna
        rw [hnext] at hna
        exact hdisj a ha a (List.mem_of_head? hna) rfl
      rw [segment_append] at hseg₁ ⊢
      refine ⟨(segment_congr ?_ ?_).mpr hseg₁.1, ?_, ?_, trivial⟩
      · intro a ha
        rw [hp a (by simp [ha]), if_neg (hhead₂ a (by simp [ha]))]
      · intro a ha
        rw [hn a (by simp [ha]), hlast, if_neg]
        simp only [Option.some.injEq]
        rintro rfl
        exact hb ha
      · rw [hp b (by simp), if_neg (hhead₂ b (by simp))]
        exact hseg₁.2.1
      · rw [hn b (by simp), hlast, if_pos rfl, hnext]
        simp
  have hafter : Segment prev' next' (l₁.getLast?.or none) l₂ none := by
    cases l₂ with
    | nil => trivial
    | cons b l =>
      have hfirst : next m = some b := by simpa using hnext
      have hb : b ∉ l := (List.nodup_cons.mp hnd₂).1
      have hlast₁ : ∀ a ∈ b :: l, prev m ≠ some a := by
        intro a ha hpa
        rw [hprev] at hpa
        exact hdisj a (List.mem_of_getLast? hpa) a ha rfl
      refine ⟨?_, ?_, (segment_congr ?_ ?_).mpr hseg₂.2.2⟩
      · rw [hp b (by simp), hfirst, if_pos rfl, hprev]
        simp
      · rw [hn b (by simp), if_neg (hlast₁ b (by simp))]
        exact hseg₂.2.1
      · intro a ha
        rw [hp a (by simp [ha]), hfirst, if_neg]
        simp only [Option.some.injEq]
        rintro rfl
        exact hb ha
      · intro a ha
        rw [hn a (by simp [ha]), if_neg (hlast₁ a (by simp [ha]))]
  refine ⟨segment_append.mpr ⟨hbefore, hafter⟩, ?_, ?_, List.nodup_append.mpr ⟨hnd₁, hnd₂, hdisj⟩⟩
  · rw [hprev, hnext, hhead]
    cases l₁ <;> simp
  · rw [hprev, hnext, htail]
    cases l₂ <;> simp [List.getLast?_append, List.getLast?_cons]

end DoublyLinked
