import Mathlib

/-!
# Memory and big-endian numbers

A memory gives a byte for every place. Bytes are written and read as lists, one place after the
other; what is written over other bytes takes their place. A number is split into as many bytes as
it is given, the highest one first.
-/

namespace Iceee.Lib

abbrev Byte := BitVec 8

abbrev Memory := ℕ → Byte

namespace Memory

/-- Write bytes from a place on. -/
def write (m : Memory) (p : ℕ) (bytes : List Byte) : Memory := fun i =>
  if p ≤ i then bytes[i - p]?.getD (m i) else m i

/-- Read `n` bytes from a place on. -/
def read (m : Memory) (p n : ℕ) : List Byte := (List.range n).map fun i => m (p + i)

section

variable {m : Memory} {p q n : ℕ} {bytes : List Byte}

@[simp] theorem length_read : (m.read p n).length = n := by
  simp [read]

theorem write_apply_of_lt {i : ℕ} (hi : i < bytes.length) :
    m.write p bytes (p + i) = bytes[i] := by
  unfold write
  rw [if_pos (Nat.le_add_right p i), Nat.add_sub_cancel_left, List.getElem?_eq_getElem hi]
  rfl

theorem write_apply {i : ℕ} {b : Byte} (hi : bytes[i]? = some b) : m.write p bytes (p + i) = b := by
  obtain ⟨hlt, rfl⟩ := List.getElem?_eq_some_iff.mp hi
  exact write_apply_of_lt hlt

/-- Places outside of what is written keep their bytes. -/
theorem write_apply_of_notMem {i : ℕ} (hi : i < p ∨ p + bytes.length ≤ i) :
    m.write p bytes i = m i := by
  unfold write
  split
  · have hout : bytes.length ≤ i - p := by omega
    rw [List.getElem?_eq_none hout]
    rfl
  · rfl

@[simp] theorem write_nil (m : Memory) (p : ℕ) : m.write p [] = m := by
  funext i
  exact write_apply_of_notMem (by simp; omega)

/-- What is written next to something is written with it. -/
theorem write_write_append (m : Memory) (p : ℕ) (xs ys : List Byte) :
    (m.write p xs).write (p + xs.length) ys = m.write p (xs ++ ys) := by
  funext i
  by_cases hxs : p + xs.length ≤ i
  · have hp : p ≤ i := (Nat.le_add_right p _).trans hxs
    have hin : xs.length ≤ i - p := by omega
    have hsub : i - (p + xs.length) = i - p - xs.length := by omega
    simp only [write, if_pos hxs, if_pos hp, List.getElem?_append_right hin, hsub,
      List.getElem?_eq_none hin, Option.getD_none]
  · rw [write_apply_of_notMem (.inl (not_le.mp hxs))]
    unfold write
    split
    · have hin : i - p < xs.length := by omega
      rw [List.getElem?_append_left hin]
    · rfl

/-- Bytes written over as many others take their place. -/
theorem write_write_patch (m : Memory) (p : ℕ) (xs zs : List Byte) {ys ys' : List Byte}
    (hlength : ys'.length = ys.length) :
    (m.write p (xs ++ ys ++ zs)).write (p + xs.length) ys' = m.write p (xs ++ ys' ++ zs) := by
  funext i
  by_cases hlt : i < p + xs.length
  · rw [write_apply_of_notMem (.inl hlt)]
    unfold write
    split
    · have hin : i - p < xs.length := by omega
      rw [List.append_assoc, List.append_assoc, List.getElem?_append_left hin,
        List.getElem?_append_left hin]
    · rfl
  · obtain ⟨k, rfl⟩ := Nat.exists_eq_add_of_le (not_lt.mp hlt)
    by_cases hk : k < ys'.length
    · rw [write_apply_of_lt hk, Nat.add_assoc, write_apply_of_lt (by simp; omega)]
      simp [hk]
    · rw [write_apply_of_notMem (.inr (by omega))]
      have hp : p ≤ p + xs.length + k := by omega
      have hsub : p + xs.length + k - p = xs.length + k := by omega
      have hout : ys'.length ≤ k := not_lt.mp hk
      simp only [write, if_pos hp, hsub]
      rw [List.append_assoc, List.append_assoc, List.getElem?_append_right (by omega),
        List.getElem?_append_right (by omega), Nat.add_sub_cancel_left,
        List.getElem?_append_right (by omega), List.getElem?_append_right (by omega), hlength,
        Nat.add_sub_cancel_left]

/-- What was written is read. -/
theorem read_write (m : Memory) (p : ℕ) (bytes : List Byte) :
    (m.write p bytes).read p bytes.length = bytes := by
  refine List.ext_getElem length_read fun i hi hi' => ?_
  simp only [read, List.getElem_map, List.getElem_range]
  exact write_apply_of_lt hi'

theorem read_add (m : Memory) (p k n : ℕ) :
    m.read p (k + n) = m.read p k ++ m.read (p + k) n := by
  unfold read
  rw [List.range_add, List.map_append, List.map_map]
  refine congrArg _ (List.map_congr_left fun i _ => ?_)
  exact congrArg m (Nat.add_assoc p k i).symm

/-- A part of what was written is read. -/
theorem read_write_of_append (m : Memory) (p : ℕ) (xs ys zs : List Byte) :
    (m.write p (xs ++ ys ++ zs)).read (p + xs.length) ys.length = ys := by
  have hread := read_write m p (xs ++ ys ++ zs)
  rw [List.length_append, List.length_append, read_add, read_add] at hread
  exact (List.append_inj (List.append_inj hread (by simp)).1 length_read).2

end

/-- The memory has these bytes from a place on. -/
def Holds (m : Memory) (p : ℕ) (bytes : List Byte) : Prop := m.read p bytes.length = bytes

section Holds

variable {m : Memory} {p : ℕ} {bytes xs ys : List Byte}

theorem holds_write (m : Memory) (p : ℕ) (bytes : List Byte) : (m.write p bytes).Holds p bytes :=
  read_write m p bytes

theorem holds_append : m.Holds p (xs ++ ys) ↔ m.Holds p xs ∧ m.Holds (p + xs.length) ys := by
  unfold Holds
  rw [List.length_append, read_add]
  constructor
  · exact fun h => List.append_inj h length_read
  · exact fun h => by rw [h.1, h.2]

/-- What is written behind the bytes that are there comes after them. -/
theorem Holds.write_append (h : m.Holds p xs) (ys : List Byte) :
    (m.write (p + xs.length) ys).Holds p (xs ++ ys) := by
  refine holds_append.mpr ⟨?_, holds_write m _ ys⟩
  calc (m.write (p + xs.length) ys).read p xs.length
    _ = m.read p xs.length := List.map_congr_left fun i hi =>
        write_apply_of_notMem (.inl (Nat.add_lt_add_left (List.mem_range.mp hi) p))
    _ = xs := h

/-- Writing what is there changes nothing. -/
theorem Holds.write_eq (h : m.Holds p bytes) : m.write p bytes = m := by
  funext i
  by_cases hi : i < p ∨ p + bytes.length ≤ i
  · exact write_apply_of_notMem hi
  · obtain ⟨k, rfl⟩ := Nat.exists_eq_add_of_le (not_lt.mp (not_or.mp hi).1)
    have hk : k < bytes.length := by omega
    have hread : (m.read p bytes.length)[k]? = bytes[k]? := congrArg (·[k]?) h
    rw [write_apply_of_lt hk]
    simpa [read, hk, eq_comm] using hread

end Holds

end Memory

/-! ### Big-endian numbers -/

/-- The lowest `n` bytes of a number. -/
def be : ℕ → ℕ → List Byte
  | 0, _ => []
  | n + 1, v => be n (v / 256) ++ [BitVec.ofNat 8 v]

/-- The number that bytes stand for. -/
def ofBe (bytes : List Byte) : ℕ := bytes.foldl (fun v b => v * 256 + b.toNat) 0

@[simp] theorem length_be (n v : ℕ) : (be n v).length = n := by
  induction n generalizing v with
  | zero => rfl
  | succ n ih => rw [be, List.length_append, ih, List.length_singleton]

theorem ofBe_append_singleton (bytes : List Byte) (b : Byte) :
    ofBe (bytes ++ [b]) = ofBe bytes * 256 + b.toNat := by
  unfold ofBe
  rw [List.foldl_append, List.foldl_cons, List.foldl_nil]

/-- Of the lowest `n` bytes, the number is what is left by `256 ^ n`. -/
theorem ofBe_be (n v : ℕ) : ofBe (be n v) = v % 256 ^ n := by
  induction n generalizing v with
  | zero => rw [pow_zero, Nat.mod_one]; rfl
  | succ n ih =>
      calc ofBe (be n (v / 256) ++ [BitVec.ofNat 8 v])
        _ = v / 256 % 256 ^ n * 256 + v % 256 := by
            rw [ofBe_append_singleton, ih, BitVec.toNat_ofNat]
        _ = v % 256 + 256 * (v / 256 % 256 ^ n) := by rw [Nat.add_comm, Nat.mul_comm]
        _ = v % 256 ^ (n + 1) := by rw [pow_succ', Nat.mod_mul]

theorem ofBe_be_of_lt {n v : ℕ} (h : v < 256 ^ n) : ofBe (be n v) = v := by
  rw [ofBe_be, Nat.mod_eq_of_lt h]

end Iceee.Lib
