import Mathlib

/-!
# Counting the values of a map

How many entries of an ordered map have a value of some kind, and how the number changes
when an entry is set or erased.
-/

namespace Iceee.Lib

open Std

variable {κ α : Type*} [Ord κ] [TransOrd κ]

theorem mem_iff_exists_getElem? {t : TreeMap κ α} {k : κ} : k ∈ t ↔ ∃ v, t[k]? = some v := by
  rw [TreeMap.mem_iff_isSome_getElem?, Option.isSome_iff_exists]

theorem not_mem_iff_getElem? {t : TreeMap κ α} {k : κ} : k ∉ t ↔ t[k]? = none := by
  rw [TreeMap.mem_iff_isSome_getElem?, Option.not_isSome_iff_eq_none]

variable [LawfulEqOrd κ]

theorem getElem?_insert_ite [DecidableEq κ] (t : TreeMap κ α) (k k' : κ) (v : α) :
    (t.insert k v)[k']? = if k' = k then some v else t[k']? := by
  rw [TreeMap.getElem?_insert]
  exact if_congr (compare_eq_iff_eq.trans eq_comm) rfl rfl

theorem getElem?_erase_ite [DecidableEq κ] (t : TreeMap κ α) (k k' : κ) :
    (t.erase k)[k']? = if k' = k then none else t[k']? := by
  rw [TreeMap.getElem?_erase]
  exact if_congr (compare_eq_iff_eq.trans eq_comm) rfl rfl

theorem nodup_toList (t : TreeMap κ α) : t.toList.Nodup := by
  apply List.Pairwise.imp _ TreeMap.distinct_keys_toList
  rintro a b hne rfl
  exact hne ReflOrd.compare_self

/-- Two maps with the same values have the same entries, in the same order. -/
theorem toList_congr {t t' : TreeMap κ α} (h : ∀ k : κ, t[k]? = t'[k]?) :
    t.toList = t'.toList := by
  apply TreeMap.Equiv.toList_eq
  rw [TreeMap.equiv_iff_toList_perm,
    List.perm_ext_iff_of_nodup (nodup_toList t) (nodup_toList t')]
  rintro ⟨k, v⟩
  rw [TreeMap.mem_toList_iff_getElem?_eq_some, TreeMap.mem_toList_iff_getElem?_eq_some, h k]

/-- The number of entries whose value satisfies `p`. -/
def countValues (p : α → Bool) (t : TreeMap κ α) : Nat := t.toList.countP fun e => p e.2

/-- What an entry adds to the number. -/
def tick (p : α → Bool) (o : Option α) : Nat := if o.any p then 1 else 0

@[simp] theorem tick_none (p : α → Bool) : tick p none = 0 := rfl

@[simp] theorem tick_some (p : α → Bool) (v : α) : tick p (some v) = if p v then 1 else 0 := rfl

variable (p : α → Bool) (t : TreeMap κ α)

theorem countValues_eq_zero :
    countValues p t = 0 ↔ ∀ (k : κ) (v : α), t[k]? = some v → p v = false := by
  simp only [countValues, List.countP_eq_zero, Bool.not_eq_true, Prod.forall,
    TreeMap.mem_toList_iff_getElem?_eq_some]

theorem countValues_pos {k : κ} {v : α} (hk : t[k]? = some v) (hv : p v = true) :
    0 < countValues p t := by
  apply Nat.pos_of_ne_zero
  intro h
  exact Bool.eq_false_iff.mp ((countValues_eq_zero p t).mp h k v hk) hv

/-- Only the entries that count matter. -/
theorem countValues_congr {t t' : TreeMap κ α}
    (h : ∀ (k : κ) (v : α), p v = true → (t[k]? = some v ↔ t'[k]? = some v)) :
    countValues p t = countValues p t' := by
  rw [countValues, countValues, List.countP_eq_length_filter, List.countP_eq_length_filter]
  apply List.Perm.length_eq
  rw [List.perm_ext_iff_of_nodup ((nodup_toList t).filter _) ((nodup_toList t').filter _)]
  rintro ⟨k, v⟩
  simp only [List.mem_filter, TreeMap.mem_toList_iff_getElem?_eq_some]
  exact and_congr_left fun hv => h k v hv

variable [DecidableEq κ]

/-- The entries under the other keys. -/
def others (k : κ) : List (κ × α) := t.toList.filter fun e => decide ¬(k == e.1) = true

theorem others_eq_toList {k : κ} (h : t[k]? = none) : others t k = t.toList := by
  apply List.filter_eq_self.mpr
  rintro ⟨k', v'⟩ he
  rw [TreeMap.mem_toList_iff_getElem?_eq_some] at he
  rw [decide_eq_true_eq, beq_iff_eq]
  rintro rfl
  rw [h] at he
  cases he

/-- An entry counts for itself, next to those under the other keys. -/
theorem countValues_eq_others (k : κ) :
    countValues p t = (others t k).countP (fun e => p e.2) + tick p t[k]? := by
  cases hk : t[k]? with
  | none => rw [others_eq_toList t hk, countValues, tick_none, Nat.add_zero]
  | some v =>
      have hsame : t.toList = (t.insert k v).toList := by
        apply toList_congr
        intro k'
        rw [getElem?_insert_ite]
        split
        · next h => rw [h, hk]
        · rfl
      rw [countValues, hsame, TreeMap.toList_insert_perm.countP_eq, List.countP_cons]
      rfl

theorem countValues_insert (k : κ) (v : α) :
    countValues p (t.insert k v) + tick p t[k]? = countValues p t + tick p (some v) := by
  have hins : countValues p (t.insert k v) =
      (others t k).countP (fun e => p e.2) + tick p (some v) := by
    rw [countValues, TreeMap.toList_insert_perm.countP_eq, List.countP_cons]
    rfl
  have hold := countValues_eq_others p t k
  omega

theorem countValues_erase (k : κ) :
    countValues p (t.erase k) + tick p t[k]? = countValues p t := by
  have hnone : (t.erase k)[k]? = none := by rw [getElem?_erase_ite, if_pos rfl]
  cases hk : t[k]? with
  | none =>
      have hsame : (t.erase k).toList = t.toList := by
        apply toList_congr
        intro k'
        rw [getElem?_erase_ite]
        split
        · next h => rw [h, hk]
        · rfl
      rw [countValues, hsame, tick_none, Nat.add_zero, countValues]
  | some v =>
      have hsame : t.toList = ((t.erase k).insert k v).toList := by
        apply toList_congr
        intro k'
        rw [getElem?_insert_ite, getElem?_erase_ite]
        split
        · next h => rw [h, hk]
        · rfl
      have hins := countValues_insert p (t.erase k) k v
      rw [hnone, tick_none, Nat.add_zero] at hins
      rw [← hins, countValues, countValues, hsame]

end Iceee.Lib
