import Mathlib.Data.Nat.ModEq
import Mathlib.Data.List.Basic
import Mathlib.Logic.Function.Basic

/-!
# Ring buffers

An array of `capacity` cells read as a ring: the cell at offset `j` from `head` is
`slot capacity head j`. `Shows` says which list stands from the head on, `Holds` also that the other
cells are blank. The operations are appending, taking the oldest member off, and appending to a
full ring in place of its oldest member.
-/

namespace Ring

variable {α : Type} {capacity head i j : Nat} {items : Nat → α} {blank a : α} {l : List α}

/-- The cell at an offset from the head. -/
def slot (capacity head j : Nat) : Nat := (head + j) % capacity

theorem slot_lt (hc : 0 < capacity) : slot capacity head j < capacity := Nat.mod_lt _ hc

@[simp] theorem slot_zero (hh : head < capacity) : slot capacity head 0 = head :=
  Nat.mod_eq_of_lt hh

theorem slot_slot : slot capacity (slot capacity head i) j = slot capacity head (i + j) := by
  simp [slot, Nat.add_assoc]

/-- Offsets within one round are different cells. -/
theorem slot_inj (hi : i < capacity) (hj : j < capacity)
    (h : slot capacity head i = slot capacity head j) : i = j := by
  have hmod : i % capacity = j % capacity := Nat.ModEq.add_left_cancel' head h
  rwa [Nat.mod_eq_of_lt hi, Nat.mod_eq_of_lt hj] at hmod

theorem slot_capacity (hh : head < capacity) : slot capacity head capacity = head := by
  rw [slot, Nat.add_mod_right, Nat.mod_eq_of_lt hh]

/-- Every cell is at some offset. -/
theorem exists_slot (hh : head < capacity) (hi : i < capacity) :
    ∃ j < capacity, slot capacity head j = i := by
  obtain hle | hlt := le_or_gt head i
  · refine ⟨i - head, by omega, ?_⟩
    rw [slot, Nat.add_sub_cancel' hle, Nat.mod_eq_of_lt hi]
  · refine ⟨capacity - head + i, by omega, ?_⟩
    have hsum : head + (capacity - head + i) = i + capacity := by omega
    rw [slot, hsum, Nat.add_mod_right, Nat.mod_eq_of_lt hi]

/-- The step of a cursor that wraps by a comparison. -/
theorem slot_one (hi : i < capacity) :
    slot capacity i 1 = if i + 1 = capacity then 0 else i + 1 := by
  split <;> rename_i h
  · rw [slot, h, Nat.mod_self]
  · exact Nat.mod_eq_of_lt (by omega)

/-- From the head on stands `l`. -/
def Shows (capacity head : Nat) (items : Nat → α) (l : List α) : Prop :=
  ∀ j (h : j < l.length), items (slot capacity head j) = l[j]

/-- From the head on stands `l`, and all other cells are blank. -/
def Holds (capacity head : Nat) (items : Nat → α) (blank : α) (l : List α) : Prop :=
  ∀ j < capacity, items (slot capacity head j) = l[j]?.getD blank

/-- What a write changes in the view from the head. -/
theorem update_slot (hi : i < capacity) (hj : j < capacity) :
    Function.update items (slot capacity head i) a (slot capacity head j) =
      if j = i then a else items (slot capacity head j) := by
  by_cases hji : j = i
  · simp [hji]
  · have hne : slot capacity head j ≠ slot capacity head i := fun h => hji (slot_inj hj hi h)
    simp [hji, hne]

namespace Holds

theorem push (h : Holds capacity head items blank l) (hl : l.length < capacity) :
    Holds capacity head (Function.update items (slot capacity head l.length) a) blank
      (l ++ [a]) := by
  intro j hj
  rw [update_slot hl hj, h j hj]
  obtain hlt | rfl | hgt := lt_trichotomy j l.length
  · rw [if_neg hlt.ne, List.getElem?_append_left hlt]
  · simp
  · have hlen : (l ++ [a]).length ≤ j := by simp; omega
    rw [if_neg hgt.ne', List.getElem?_eq_none hgt.le, List.getElem?_eq_none hlen]

theorem pop (h : Holds capacity head items blank (a :: l)) (hl : l.length < capacity)
    (hh : head < capacity) :
    items head = a ∧
    Holds capacity (slot capacity head 1) (Function.update items head blank) blank l := by
  have hc : 0 < capacity := by omega
  have hhead := h 0 hc
  rw [slot_zero hh] at hhead
  refine ⟨hhead, fun j hj => ?_⟩
  rw [slot_slot]
  obtain hlt | heq : 1 + j < capacity ∨ 1 + j = capacity := by omega
  · have hwrite := (update_slot hc hlt : Function.update items (slot capacity head 0) blank _ = _)
    rw [slot_zero hh, if_neg (by omega)] at hwrite
    rw [hwrite, h (1 + j) hlt, Nat.add_comm]
    rfl
  · have hlen : l.length ≤ j := by omega
    rw [heq, slot_capacity hh, Function.update_self, List.getElem?_eq_none hlen]
    rfl

/-- The cells that no member occupies are blank. -/
theorem blank_outside (h : Holds capacity head items blank l) (hh : head < capacity)
    (hi : i < capacity) (hout : ∀ j < l.length, slot capacity head j ≠ i) : items i = blank := by
  obtain ⟨j, hj, rfl⟩ := exists_slot hh hi
  rw [h j hj]
  have hlen : l.length ≤ j := by
    by_contra hlt
    exact hout j (by omega) rfl
  rw [List.getElem?_eq_none hlen]
  rfl

end Holds

namespace Shows

theorem push (h : Shows capacity head items l) (hl : l.length < capacity) :
    Shows capacity head (Function.update items (slot capacity head l.length) a) (l ++ [a]) := by
  intro j hj
  have hjc : j < capacity := by
    rw [List.length_append, List.length_singleton] at hj
    omega
  rw [update_slot hl hjc]
  by_cases hji : j = l.length
  · simp [hji]
  · have hlt : j < l.length := by
      rw [List.length_append, List.length_singleton] at hj
      omega
    rw [if_neg hji, h j hlt, List.getElem_append_left hlt]

/-- Writing over the oldest member of a full ring. -/
theorem rotate (h : Shows capacity head items l) (hl : l.length = capacity)
    (hh : head < capacity) :
    Shows capacity (slot capacity head 1) (Function.update items head a) (l.tail ++ [a]) := by
  have hc : 0 < capacity := by omega
  intro j hj
  rw [List.length_append, List.length_tail, List.length_singleton] at hj
  rw [slot_slot]
  obtain hlt | heq : 1 + j < capacity ∨ 1 + j = capacity := by omega
  · have hwrite := (update_slot hc hlt : Function.update items (slot capacity head 0) a _ = _)
    rw [slot_zero hh, if_neg (by omega)] at hwrite
    have htail : j < l.tail.length := by rw [List.length_tail]; omega
    rw [hwrite, h (1 + j) (by omega), List.getElem_append_left htail, List.getElem_tail]
    congr 1
    omega
  · have hlast : j = l.tail.length := by rw [List.length_tail]; omega
    rw [heq, slot_capacity hh, Function.update_self]
    simp [hlast]

end Shows

end Ring
