import Mathlib.Data.Nat.Bitwise
import RtsKernel.Model.Types

/-!
# Modular scheduler time

The comparisons of `time_internal.h`, and what they mean for ticks whose distance from
a common base stays below the half range.
-/

namespace RtsKernel

/-- `rts_tick_before`. -/
def tickBefore (a b : Tick) : Prop :=
  a - b ≠ tickHalfRange ∧ (a - b) &&& tickHalfRange ≠ 0

instance (a b : Tick) : Decidable (tickBefore a b) :=
  inferInstanceAs (Decidable (_ ∧ _))

/-- `rts_tick_reached`. -/
def tickReached (now deadline : Tick) : Prop := now = deadline ∨ tickBefore deadline now

instance (now deadline : Tick) : Decidable (tickReached now deadline) :=
  inferInstanceAs (Decidable (_ ∨ _))

/-- Ticks from `base` until `a`, modulo `2 ^ 32`. -/
def distance (base a : Tick) : Nat := (a - base).toNat

theorem and_halfRange_ne_zero (d : Tick) : d &&& tickHalfRange ≠ 0 ↔ 2 ^ 31 ≤ d.toNat := by
  have hmsb : d.toNat.testBit 31 = decide (2 ^ 31 ≤ d.toNat) := by
    rw [← BitVec.msb_eq_decide d, BitVec.msb_eq_getLsbD_last]
    rfl
  have hand : (d &&& tickHalfRange).toNat = (d.toNat.testBit 31).toNat * 2 ^ 31 :=
    Nat.and_two_pow d.toNat 31
  rw [ne_eq, ← BitVec.toNat_inj, hand, hmsb]
  simp

theorem tickBefore_iff (a b : Tick) : tickBefore a b ↔ 2 ^ 31 < distance b a := by
  unfold tickBefore distance
  rw [and_halfRange_ne_zero]
  have hne : a - b ≠ tickHalfRange ↔ (a - b).toNat ≠ 2 ^ 31 := by
    rw [ne_eq, ← BitVec.toNat_inj]
    rfl
  rw [hne]
  omega

theorem tickReached_iff (now deadline : Tick) :
    tickReached now deadline ↔ distance deadline now < 2 ^ 31 := by
  unfold tickReached
  rw [tickBefore_iff]
  unfold distance
  constructor
  · rintro (rfl | h)
    · simp
    · bv_omega
  · intro h
    by_cases he : now = deadline
    · exact .inl he
    · right
      bv_omega

theorem distance_lt (base a : Tick) : distance base a < 2 ^ 32 := (a - base).isLt

@[simp] theorem distance_self (base : Tick) : distance base base = 0 := by simp [distance]

theorem distance_inj (base : Tick) {a b : Tick} : distance base a = distance base b ↔ a = b := by
  unfold distance
  constructor
  · intro h; bv_omega
  · rintro rfl; rfl

/-- Two ticks less than a half range ahead of a common base compare as their distances. -/
theorem tickBefore_iff_of_window {base a b : Tick} (ha : distance base a < 2 ^ 31)
    (hb : distance base b < 2 ^ 31) : tickBefore a b ↔ distance base a < distance base b := by
  rw [tickBefore_iff]
  unfold distance at *
  bv_omega

/-- Inside such a window the half-range difference, which the delay queue rejects, is absent. -/
theorem sub_ne_halfRange_of_window {base a b : Tick} (ha : distance base a < 2 ^ 31)
    (hb : distance base b < 2 ^ 31) : a - b ≠ tickHalfRange := by
  unfold distance at *
  unfold tickHalfRange
  bv_omega

/-- A deadline ahead of the base is reached after `elapsed` ticks exactly when its distance
is used up. -/
theorem tickReached_add_iff {base elapsed deadline : Tick} (he : elapsed ≤ delayMax)
    (hd : distance base deadline < 2 ^ 31) :
    tickReached (base + elapsed) deadline ↔ distance base deadline ≤ elapsed.toNat := by
  rw [tickReached_iff]
  have he' : elapsed.toNat < 2 ^ 31 := by
    have := BitVec.le_def.mp he
    simp [delayMax] at this
    omega
  unfold distance at *
  bv_omega

/-- The distance that is left after `elapsed` ticks that do not use it up. -/
theorem distance_add {base elapsed deadline : Tick} (h : elapsed.toNat ≤ distance base deadline) :
    distance (base + elapsed) deadline = distance base deadline - elapsed.toNat := by
  unfold distance at *
  bv_omega

theorem distance_of_add (base d : Tick) : distance base (base + d) = d.toNat := by
  unfold distance
  bv_omega

theorem toNat_le_of_le_delayMax {d : Tick} (h : d ≤ delayMax) : d.toNat < 2 ^ 31 := by
  have := BitVec.le_def.mp h
  simp [delayMax] at this
  omega

end RtsKernel
