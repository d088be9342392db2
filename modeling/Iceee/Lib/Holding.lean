import Mathlib

/-!
# Weighing a family of lists

A holding is a finite family of lists. Each entry has a weight that may depend on
the list it stands in, and `total` adds the weights up. The lemmas say what each
list operation at one index does to the total.
-/

namespace Iceee.Lib

variable {ι α M : Type*} [AddCommGroup M]

/-- Erasing the first match takes exactly its weight out of the sum. -/
theorem sum_map_eraseP {w : α → M} {p : α → Bool} {l : List α} {a : α}
    (h : l.find? p = some a) : (l.map w).sum = w a + ((l.eraseP p).map w).sum := by
  induction l with
  | nil => simp at h
  | cons b rest ih =>
      by_cases hb : p b = true
      · rw [List.find?_cons_of_pos hb, Option.some.injEq] at h
        subst h
        rw [List.eraseP_cons_of_pos hb, List.map_cons, List.sum_cons]
      · rw [List.find?_cons_of_neg hb] at h
        have hrest := ih h
        simp only [List.eraseP_cons_of_neg hb, List.map_cons, List.sum_cons, hrest]
        abel

/-- Erasing the first match of one test does not hide the matches of another. -/
theorem find?_eraseP {p q : α → Bool} {l : List α} (h : ∀ a, p a = true → q a = false) :
    (l.eraseP p).find? q = l.find? q := by
  induction l with
  | nil => rfl
  | cons b rest ih =>
      by_cases hb : p b = true
      · rw [List.eraseP_cons_of_pos hb, List.find?_cons_of_neg (by simp [h b hb])]
      · rw [List.eraseP_cons_of_neg hb, List.find?_cons, List.find?_cons, ih]

/-- Erasing one index takes exactly the weight found there out of the sum. -/
theorem sum_map_eraseIdx {w : α → M} {l : List α} {i : Nat} {a : α}
    (h : l[i]? = some a) : (l.map w).sum = w a + ((l.eraseIdx i).map w).sum := by
  obtain ⟨hlt, rfl⟩ := List.getElem?_eq_some_iff.mp h
  have hlen : i < (l.map w).length := by simpa using hlt
  have hsum := List.CommMonoid.add_sum_eraseIdx (l := l.map w) hlen
  rw [List.getElem_map] at hsum
  rw [← hsum, List.eraseIdx_map]

/-- Changing the entry at one index replaces its weight. -/
theorem sum_map_modify {w : α → M} {f : α → α} {l : List α} {i : Nat} {a : α}
    (h : l[i]? = some a) :
    ((l.modify i f).map w).sum = (l.map w).sum + (w (f a) - w a) := by
  induction l generalizing i with
  | nil => simp at h
  | cons b rest ih =>
      cases i with
      | zero =>
          simp only [List.getElem?_cons_zero, Option.some.injEq] at h
          subst h
          simp only [List.modify_zero_cons, List.map_cons, List.sum_cons]
          abel
      | succ i =>
          simp only [List.getElem?_cons_succ] at h
          simp only [List.modify_succ_cons, List.map_cons, List.sum_cons, ih h]
          abel

section Total

variable [Fintype ι] [DecidableEq ι] (w : ι → α → M)

/-- The weight of everything held. -/
def total (h : ι → List α) : M := ∑ i, ((h i).map (w i)).sum

theorem total_update (h : ι → List α) (i : ι) (l : List α) :
    total w (Function.update h i l) =
      total w h + ((l.map (w i)).sum - ((h i).map (w i)).sum) := by
  have hne (j : ι) (hj : j ∈ Finset.univ.erase i) :
      ((Function.update h i l j).map (w j)).sum = ((h j).map (w j)).sum := by
    rw [Function.update_of_ne (Finset.ne_of_mem_erase hj)]
  unfold total
  rw [← Finset.add_sum_erase _ _ (Finset.mem_univ i),
    ← Finset.add_sum_erase _ (fun j => ((h j).map (w j)).sum) (Finset.mem_univ i),
    Finset.sum_congr rfl hne, Function.update_self]
  abel

theorem total_append (h : ι → List α) (i : ι) (a : α) :
    total w (Function.update h i (h i ++ [a])) = total w h + w i a := by
  rw [total_update]
  simp

theorem total_eraseP {h : ι → List α} {i : ι} {p : α → Bool} {a : α}
    (ha : (h i).find? p = some a) :
    total w (Function.update h i ((h i).eraseP p)) = total w h - w i a := by
  rw [total_update, sum_map_eraseP (w := w i) ha]
  abel

theorem total_eraseIdx {h : ι → List α} {i : ι} {n : Nat} {a : α}
    (ha : (h i)[n]? = some a) :
    total w (Function.update h i ((h i).eraseIdx n)) = total w h - w i a := by
  rw [total_update, sum_map_eraseIdx (w := w i) ha]
  abel

theorem total_modify {h : ι → List α} {i : ι} {n : Nat} {a : α} (f : α → α)
    (ha : (h i)[n]? = some a) :
    total w (Function.update h i ((h i).modify n f)) = total w h + (w i (f a) - w i a) := by
  rw [total_update, sum_map_modify ha]
  abel

end Total

end Iceee.Lib
