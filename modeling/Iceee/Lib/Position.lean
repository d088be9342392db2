import Mathlib

/-!
# Places in lists

A table is a list of entries, looked up and erased at the first entry that matches. A place is kept
while entries are taken out; its entry is still there exactly where nothing up to it is taken out.
-/

namespace Iceee.Lib

/-! ### The first entry that matches -/

section First

variable {α : Type*} {p : α → Bool} {l : List α}

/-- A lookup by index finds nothing, or the entry that a lookup by value finds; erasing at the index
erases that entry. -/
theorem findIdx?_cases (p : α → Bool) (l : List α) :
    (l.findIdx? p = none ∧ l.find? p = none) ∨
      ∃ i a, l.findIdx? p = some i ∧ l[i]? = some a ∧ l.find? p = some a ∧
        l.eraseIdx i = l.eraseP p := by
  cases hi : l.findIdx? p with
  | none =>
      refine .inl ⟨rfl, List.find?_eq_none.mpr fun a ha => ?_⟩
      rw [List.findIdx?_eq_none_iff.mp hi a ha]
      exact Bool.false_ne_true
  | some i =>
      obtain ⟨hlt, hidx⟩ := List.findIdx?_eq_some_iff_findIdx_eq.mp hi
      have ha : l[i]? = some l[i] := List.getElem?_eq_getElem hlt
      refine .inr ⟨i, l[i], rfl, ha, ?_, ?_⟩
      · rw [List.find?_eq_getElem?_findIdx, hidx, ha]
      · rw [List.eraseP_eq_eraseIdx, hi]

theorem find?_append_of_some {a : α} (h : l.find? p = some a) (l' : List α) :
    (l ++ l').find? p = some a := by
  rw [List.find?_append, h, Option.some_or]

theorem find?_append_singleton_of_none (h : l.find? p = none) (a : α) :
    (l ++ [a]).find? p = if p a then some a else none := by
  rw [List.find?_append, h, Option.none_or, List.find?_singleton]

end First

/-! ### Places after an erasure -/

variable {α : Type*}

/-- An entry moves to the front, if anywhere. -/
theorem le_of_getElem?_filter {l : List α} (h : l.Nodup) {p : α → Bool} {i j : ℕ} {a : α}
    (hi : l[i]? = some a) (hj : (l.filter p)[j]? = some a) : j ≤ i := by
  induction l generalizing i j with
  | nil => cases hi
  | cons b l ih =>
      obtain ⟨hb, hl⟩ := List.nodup_cons.mp h
      cases i with
      | zero =>
          cases hi
          by_cases hpa : p a
          · rw [List.filter_cons_of_pos hpa] at hj
            cases j with
            | zero => exact le_rfl
            | succ j => exact (hb (List.mem_of_mem_filter (List.mem_of_getElem? hj))).elim
          · rw [List.filter_cons_of_neg hpa] at hj
            exact (hb (List.mem_of_mem_filter (List.mem_of_getElem? hj))).elim
      | succ i =>
          by_cases hpb : p b
          · rw [List.filter_cons_of_pos hpb] at hj
            cases j with
            | zero => exact Nat.zero_le _
            | succ j => exact Nat.succ_le_succ (ih hl hi hj)
          · rw [List.filter_cons_of_neg hpb] at hj
            exact (ih hl hi hj).trans (Nat.le_succ i)

/-- The entry at a place stays there exactly where it and the entries before it stay. -/
theorem getElem?_filter_iff {l : List α} (h : l.Nodup) {p : α → Bool} {i : ℕ} {a : α}
    (hi : l[i]? = some a) :
    (l.filter p)[i]? = some a ↔ ∀ b ∈ l.take (i + 1), p b = true := by
  induction l generalizing i with
  | nil => cases hi
  | cons b l ih =>
      obtain ⟨hb, hl⟩ := List.nodup_cons.mp h
      rw [List.take_succ_cons, List.forall_mem_cons]
      by_cases hpb : p b
      · rw [List.filter_cons_of_pos hpb]
        cases i with
        | zero =>
            cases hi
            simp [hpb]
        | succ i =>
            rw [List.getElem?_cons_succ, ih hl hi]
            simp [hpb]
      · rw [List.filter_cons_of_neg hpb]
        refine iff_of_false (fun hj => ?_) fun hboth => hpb hboth.1
        cases i with
        | zero =>
            cases hi
            exact hb (List.mem_of_mem_filter (List.mem_of_getElem? hj))
        | succ i =>
            have hle := le_of_getElem?_filter hl hi hj
            omega

end Iceee.Lib
