import Mathlib

/-!
# Machine numbers

A signed 32-bit variable keeps the representative of its value modulo `2 ^ 32`. A conversion to an
integer drops the fraction. Flags are kept in the bits of words.
-/

namespace Iceee.Lib

/-- What an `int` holds after `x` was assigned to it. -/
def wrap32 (x : Int) : Int := x.bmod (2 ^ 32)

/-- The values an `int` can hold. -/
def InInt32 (x : Int) : Prop := -2 ^ 31 ≤ x ∧ x < 2 ^ 31

instance (x : Int) : Decidable (InInt32 x) := inferInstanceAs (Decidable (_ ∧ _))

theorem wrap32_eq {x : Int} (h : InInt32 x) : wrap32 x = x := by
  obtain ⟨hlo, hhi⟩ := h
  unfold wrap32
  apply Int.bmod_eq_of_le <;> omega

theorem wrap32_inInt32 (x : Int) : InInt32 (wrap32 x) := by
  have hlo := Int.le_bmod (x := x) (m := 2 ^ 32) (by norm_num)
  have hhi := Int.bmod_lt (x := x) (m := 2 ^ 32) (by norm_num)
  unfold InInt32 wrap32
  constructor <;> omega

/-- Only a value below the range is moved up. -/
theorem wrap32_le {x : Int} (h : -2 ^ 31 ≤ x) : wrap32 x ≤ x := by
  unfold wrap32
  rw [Int.bmod_def]
  split <;> omega

/-- Wrapping an intermediate result does not change the final one. -/
@[simp] theorem wrap32_add_wrap32 (x y : Int) : wrap32 (wrap32 x + y) = wrap32 (x + y) := by
  simp [wrap32]

@[simp] theorem wrap32_sub_wrap32 (x y : Int) : wrap32 (wrap32 x - y) = wrap32 (x - y) := by
  simp [wrap32]

/-! ### Conversion of numbers to integers -/

/-- A conversion to an integer drops the fraction. -/
def trunc (value : ℚ) : Int := value.num.tdiv value.den

theorem trunc_intCast (n : Int) : trunc n = n := by
  rw [trunc, Rat.num_intCast, Rat.den_intCast]
  exact Int.tdiv_one n

/-- At and above zero the conversion rounds down. -/
theorem trunc_of_nonneg {x : ℚ} (h : 0 ≤ x) : trunc x = ⌊x⌋ := by
  rw [trunc, Rat.floor_def', Int.tdiv_eq_ediv_of_nonneg (Rat.num_nonneg.mpr h)]

theorem trunc_neg (x : ℚ) : trunc (-x) = -trunc x := by
  rw [trunc, trunc, Rat.neg_num, Rat.neg_den, Int.neg_tdiv]

/-- Below zero it rounds up. -/
theorem trunc_of_nonpos {x : ℚ} (h : x ≤ 0) : trunc x = ⌈x⌉ := by
  have hneg := trunc_of_nonneg (neg_nonneg.mpr h)
  rw [trunc_neg] at hneg
  rw [← neg_neg (trunc x), hneg, Int.floor_neg, neg_neg]

/-- A fraction below zero is rounded up, any other number down. -/
theorem trunc_eq_floor (x : ℚ) : trunc x = ⌊x⌋ + if x < 0 ∧ ⌊x⌋ ≠ x then 1 else 0 := by
  by_cases hneg : x < 0
  · rw [trunc_of_nonpos (le_of_lt hneg)]
    by_cases hwhole : ⌊x⌋ = x
    · rw [if_neg fun h => h.2 hwhole, add_zero, ← hwhole, Int.ceil_intCast, Int.floor_intCast]
    · rw [if_pos ⟨hneg, hwhole⟩, Int.ceil_eq_iff]
      have hlow := lt_of_le_of_ne (Int.floor_le x) hwhole
      have hhigh := Int.lt_floor_add_one x
      push_cast
      exact ⟨by linarith, by linarith⟩
  · rw [trunc_of_nonneg (not_lt.mp hneg), if_neg fun h => hneg h.1, add_zero]

/-! ### Flags kept in the bits of an array of words -/

section Flags

variable {ι : Type*} {w : Nat}

/-- Whether one of the bits of a mask is set. -/
def testFlag (words : ι → BitVec w) (i : ι) (mask : BitVec w) : Bool := words i &&& mask != 0

section Update

variable [DecidableEq ι]

def setFlag (words : ι → BitVec w) (i : ι) (mask : BitVec w) : ι → BitVec w :=
  Function.update words i (words i ||| mask)

def clearFlag (words : ι → BitVec w) (i : ι) (mask : BitVec w) : ι → BitVec w :=
  Function.update words i (words i &&& ~~~mask)

end Update

variable {words : ι → BitVec w} {i j : ι} {k l : Nat}

theorem testFlag_iff (hk : k < w) :
    testFlag words i (1#w <<< k) = true ↔ (words i).getLsbD k = true := by
  rw [testFlag, ← BitVec.twoPow_eq, BitVec.and_twoPow, bne_iff_ne]
  have hone : BitVec.twoPow w k ≠ 0 := by
    intro heq
    have hbit := congrArg (BitVec.getLsbD · k) heq
    simp [hk] at hbit
  split
  · next hset => exact iff_of_true hone hset
  · next hset => exact iff_of_false (fun hne => hne rfl) hset

theorem testFlag_zero (mask : BitVec w) : testFlag (fun _ : ι => 0) i mask = false := by
  rw [testFlag, bne_eq_false_iff_eq]
  exact BitVec.zero_and

variable [DecidableEq ι]

/-- Setting a bit sets that bit and no other. -/
theorem testFlag_setFlag (hk : k < w) (hl : l < w) :
    testFlag (setFlag words i (1#w <<< k)) j (1#w <<< l) = true ↔
      (i = j ∧ k = l) ∨ testFlag words j (1#w <<< l) = true := by
  rw [testFlag_iff hl, testFlag_iff hl, setFlag, Function.update_apply]
  split
  · next hij =>
      rw [hij, BitVec.getLsbD_or, ← BitVec.twoPow_eq, BitVec.getLsbD_twoPow]
      simp [hk, or_comm]
  · next hij => simp [Ne.symm hij]

/-- Clearing a bit clears that bit and no other. -/
theorem testFlag_clearFlag (hk : k < w) (hl : l < w) :
    testFlag (clearFlag words i (1#w <<< k)) j (1#w <<< l) = true ↔
      ¬(i = j ∧ k = l) ∧ testFlag words j (1#w <<< l) = true := by
  rw [testFlag_iff hl, testFlag_iff hl, clearFlag, Function.update_apply]
  split
  · next hij =>
      rw [hij, BitVec.getLsbD_and, BitVec.getLsbD_not, ← BitVec.twoPow_eq, BitVec.getLsbD_twoPow]
      simp [hk, hl, and_comm]
  · next hij => simp [Ne.symm hij]

end Flags

end Iceee.Lib
