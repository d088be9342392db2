import Mathlib

/-!
# Taking a stream in blocks

A message is compressed one block after the other, and what does not fill a block is left over. What
is left over of one part stands in front of the next, so that a message may come in parts.
-/

namespace Iceee.Lib

variable {α S : Type*} {n : ℕ} {compress : S → List α → S} {s : S} {xs ys : List α}

/-- The first `k` blocks of `n` places are compressed. -/
def absorbBlocks (n : ℕ) (compress : S → List α → S) : ℕ → S → List α → S × List α
  | 0, s, xs => (s, xs)
  | k + 1, s, xs => absorbBlocks n compress k (compress s (xs.take n)) (xs.drop n)

/-- All blocks are compressed, with what is left over. -/
def absorb (n : ℕ) (compress : S → List α → S) (s : S) (xs : List α) : S × List α :=
  absorbBlocks n compress (xs.length / n) s xs

theorem absorbBlocks_add (j k : ℕ) (s : S) (xs : List α) :
    absorbBlocks n compress (j + k) s xs =
      absorbBlocks n compress k (absorbBlocks n compress j s xs).1
        (absorbBlocks n compress j s xs).2 := by
  induction j generalizing s xs with
  | zero => rw [Nat.zero_add, absorbBlocks]
  | succ j ih =>
      rw [Nat.add_right_comm]
      exact ih _ _

theorem snd_absorbBlocks (k : ℕ) (s : S) (xs : List α) :
    (absorbBlocks n compress k s xs).2 = xs.drop (n * k) := by
  induction k generalizing s xs with
  | zero => rfl
  | succ k ih => rw [absorbBlocks, ih, List.drop_drop, Nat.mul_succ, Nat.add_comm]

/-- What comes behind the blocks is left over. -/
theorem absorbBlocks_append {k : ℕ} (h : n * k ≤ xs.length) (s : S) (ys : List α) :
    absorbBlocks n compress k s (xs ++ ys) =
      ((absorbBlocks n compress k s xs).1, (absorbBlocks n compress k s xs).2 ++ ys) := by
  induction k generalizing s xs with
  | zero => rfl
  | succ k ih =>
      rw [Nat.mul_succ] at h
      have htake : n ≤ xs.length := by omega
      have hrest : n * k ≤ (xs.drop n).length := by
        rw [List.length_drop]
        omega
      rw [absorbBlocks, List.take_append_of_le_length htake, List.drop_append_of_le_length htake,
        ih hrest, absorbBlocks]

theorem absorb_of_lt (h : xs.length < n) : absorb n compress s xs = (s, xs) := by
  rw [absorb, Nat.div_eq_of_lt h, absorbBlocks]

/-- A full block is compressed. -/
theorem absorb_block (hn : 0 < n) (h : xs.length = n) :
    absorb n compress s (xs ++ ys) = absorb n compress (compress s xs) ys := by
  rw [absorb, List.length_append, h, Nat.add_div_left _ hn, absorbBlocks,
    List.take_left' h, List.drop_left' h, absorb]

theorem length_snd_absorb (s : S) (xs : List α) :
    (absorb n compress s xs).2.length = xs.length % n := by
  rw [absorb, snd_absorbBlocks, List.length_drop, Nat.mod_def]

/-- A message may come in two parts: what is left over of the first stands in front of the
second. -/
theorem absorb_append (hn : 0 < n) (s : S) (xs ys : List α) :
    absorb n compress s (xs ++ ys) =
      absorb n compress (absorb n compress s xs).1 ((absorb n compress s xs).2 ++ ys) := by
  have hblocks : n * (xs.length / n) ≤ xs.length := Nat.mul_div_le _ _
  have hcount : (xs ++ ys).length / n =
      xs.length / n + ((absorb n compress s xs).2 ++ ys).length / n := by
    rw [List.length_append, List.length_append, length_snd_absorb]
    conv_lhs => rw [← Nat.div_add_mod xs.length n, Nat.add_assoc, Nat.mul_add_div hn]
  conv_lhs => rw [absorb, hcount, absorbBlocks_add, absorbBlocks_append hblocks]
  rfl

end Iceee.Lib
