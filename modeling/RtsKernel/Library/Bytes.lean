import Mathlib.Algebra.Group.Nat.Defs
import Mathlib.Data.List.Basic
import Mathlib.Logic.Function.Basic
import Mathlib.Tactic.Common

/-!
# Byte memory

A memory of bytes under addresses of `w` bits, written by loops over a cursor and by words.

## Main results

* `fill_apply`: what a loop that stores one value leaves in the memory.
* `changesOnly_fill`, `changesOnly_storeWord`: the addresses that a write can change.
-/

namespace Bytes

variable {w : Nat}

abbrev Memory (w : Nat) := BitVec w → BitVec 8

/-! ## Writes -/

/-- Store `value` from `cursor` on while it is below `stop`, at most `fuel` times. -/
def fillLoop (value : BitVec 8) (stop : BitVec w) : Nat → BitVec w → Memory w → Memory w
  | 0, _, mem => mem
  | fuel + 1, cursor, mem =>
    if cursor < stop then fillLoop value stop fuel (cursor + 1#w) (Function.update mem cursor value)
    else mem

/-- Store `value` from `start` up to `stop`. A round moves the cursor by one, so as many rounds as
their distance are enough (`fill_apply`). -/
def fill (mem : Memory w) (start stop : BitVec w) (value : BitVec 8) : Memory w :=
  fillLoop value stop (stop - start).toNat start mem

/-- Store a word, its lowest byte first. -/
def storeWord (mem : Memory w) (address : BitVec w) (value : BitVec 32) : Memory w :=
  Function.update (Function.update (Function.update (Function.update mem
    address (value.setWidth 8))
    (address + 1#w) ((value >>> 8).setWidth 8))
    (address + 2#w) ((value >>> 16).setWidth 8))
    (address + 3#w) ((value >>> 24).setWidth 8)

/-! ## What a loop stores -/

theorem toNat_succ_of_lt {a b : BitVec w} (h : a < b) : (a + 1#w).toNat = a.toNat + 1 := by
  have hlt : a.toNat < b.toNat := h
  have hb := b.isLt
  have hone : (1#w).toNat = 1 := by
    rw [BitVec.toNat_ofNat]
    exact Nat.mod_eq_of_lt (by omega)
  rw [BitVec.toNat_add, hone]
  exact Nat.mod_eq_of_lt (by omega)

theorem fillLoop_apply (value : BitVec 8) (stop : BitVec w) (fuel : Nat) (cursor : BitVec w)
    (mem : Memory w) (h : stop.toNat - cursor.toNat ≤ fuel) (a : BitVec w) :
    fillLoop value stop fuel cursor mem a = if cursor ≤ a ∧ a < stop then value else mem a := by
  induction fuel generalizing cursor mem with
  | zero =>
    have hnot : ¬ (cursor ≤ a ∧ a < stop) := by
      simp only [BitVec.le_def, BitVec.lt_def]
      omega
    rw [if_neg hnot]
    rfl
  | succ fuel ih =>
    rw [fillLoop]
    split <;> rename_i hlt
    · have hsucc := toNat_succ_of_lt hlt
      rw [ih _ _ (by omega)]
      rcases eq_or_ne a cursor with rfl | hne
      · have hin : a ≤ a ∧ a < stop := ⟨BitVec.le_refl _, hlt⟩
        simp [hin]
      · have hne' : a.toNat ≠ cursor.toNat := fun h => hne (BitVec.eq_of_toNat_eq h)
        have hiff : cursor + 1#w ≤ a ↔ cursor ≤ a := by
          simp only [BitVec.le_def, hsucc]
          omega
        simp [hiff, hne]
    · have hnot : ¬ (cursor ≤ a ∧ a < stop) := by
        simp only [BitVec.le_def, BitVec.lt_def] at *
        omega
      rw [if_neg hnot]

theorem fill_apply (mem : Memory w) (start stop : BitVec w) (value : BitVec 8) (a : BitVec w) :
    fill mem start stop value a = if start ≤ a ∧ a < stop then value else mem a := by
  refine fillLoop_apply value stop _ start mem ?_ a
  rw [BitVec.toNat_sub]
  rcases Nat.lt_or_ge start.toNat stop.toNat with hlt | hge
  · have hs := stop.isLt
    have heq : 2 ^ w - start.toNat + stop.toNat = (stop.toNat - start.toNat) + 2 ^ w := by omega
    rw [heq, Nat.add_mod_right]
    exact Nat.le_of_eq (Nat.mod_eq_of_lt (by omega)).symm
  · omega

/-! ## What a write can change -/

/-- Only bytes from `low` on and below `high` have changed. -/
def ChangesOnly (low high : Nat) (mem mem' : Memory w) : Prop :=
  ∀ a : BitVec w, a.toNat < low ∨ high ≤ a.toNat → mem' a = mem a

theorem ChangesOnly.refl {low high : Nat} (mem : Memory w) : ChangesOnly low high mem mem :=
  fun _ _ => rfl

theorem ChangesOnly.trans {low high : Nat} {mem mem' mem'' : Memory w}
    (h : ChangesOnly low high mem mem') (h' : ChangesOnly low high mem' mem'') :
    ChangesOnly low high mem mem'' := fun a ha => (h' a ha).trans (h a ha)

theorem ChangesOnly.mono {low high low' high' : Nat} {mem mem' : Memory w}
    (h : ChangesOnly low high mem mem') (hlow : low' ≤ low) (hhigh : high ≤ high') :
    ChangesOnly low' high' mem mem' := fun a ha => h a (by omega)

theorem changesOnly_fill (mem : Memory w) (start stop : BitVec w) (value : BitVec 8) :
    ChangesOnly start.toNat stop.toNat mem (fill mem start stop value) := by
  intro a ha
  have hnot : ¬ (start ≤ a ∧ a < stop) := by
    simp only [BitVec.le_def, BitVec.lt_def]
    omega
  rw [fill_apply, if_neg hnot]

theorem changesOnly_storeWord (mem : Memory w) (address : BitVec w) (value : BitVec 32)
    (h : address.toNat + 3 < 2 ^ w) :
    ChangesOnly address.toNat (address.toNat + 4) mem (storeWord mem address value) := by
  intro a ha
  have hoffset {i : Nat} (hi : i ≤ 3) : a ≠ address + BitVec.ofNat w i := by
    rintro rfl
    rw [BitVec.toNat_add, BitVec.toNat_ofNat, Nat.mod_eq_of_lt (a := i) (by omega),
      Nat.mod_eq_of_lt (by omega)] at ha
    omega
  have h0 : a ≠ address := by simpa using hoffset (i := 0) (by omega)
  have h1 : a ≠ address + 1#w := hoffset (i := 1) (by omega)
  have h2 : a ≠ address + 2#w := hoffset (i := 2) (by omega)
  have h3 : a ≠ address + 3#w := hoffset (i := 3) (by omega)
  simp [storeWord, h0, h1, h2, h3]

/-- A loop of writes, each of which stays within the bounds. -/
theorem changesOnly_foldl {ι : Type} {low high : Nat} {write : Memory w → ι → Memory w} {l : List ι}
    (h : ∀ i ∈ l, ∀ mem, ChangesOnly low high mem (write mem i)) (mem : Memory w) :
    ChangesOnly low high mem (l.foldl write mem) := by
  induction l generalizing mem with
  | nil => exact .refl mem
  | cons i l ih =>
    have hhead := h i (by simp) mem
    exact hhead.trans (ih (fun j hj => h j (by simp [hj])) (write mem i))

end Bytes
