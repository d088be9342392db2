import Mathlib

/-!
# Sorting, and one element that changes

A sort leaves some permutation without an inversion; where two elements tie, it may leave them
either way. Where the rank of one element has changed since a list was sorted, the list is still in
order exactly if every other element is on the right side of it.

## Main results

* `SortBy`: a sort of which nothing else is known.
* `pairwise_iff_of_changed`: when a sorted list is in order for the new ranks.
-/

namespace Iceee.Lib

variable {α : Type*}

/-- A sort by an order that says what comes before what. -/
structure SortBy (before : α → α → Bool) where
  sort : List α → List α
  perm : ∀ l, (sort l).Perm l
  sorted : ∀ l, (sort l).Pairwise fun a b => before b a = false

/-- The order in which inserting one element after the other puts them. -/
def SortBy.inserting (before : α → α → Bool)
    (htotal : ∀ a b, before b a = false ∨ before a b = false)
    (htrans : ∀ a b c, before b a = false → before c b = false → before c a = false) :
    SortBy before where
  sort l := l.insertionSort fun a b => before b a = false
  perm l := List.perm_insertionSort _ l
  sorted l := by
    have : Std.Total fun a b => before b a = false := ⟨htotal⟩
    have : IsTrans α fun a b => before b a = false := ⟨htrans⟩
    exact List.pairwise_insertionSort _ l

variable {l : List α} {a b : α}

/-- Two elements of a list stand in it one way or the other. -/
theorem pair_sublist_or (ha : a ∈ l) (hb : b ∈ l) (hne : a ≠ b) :
    [a, b].Sublist l ∨ [b, a].Sublist l := by
  induction l with
  | nil => cases ha
  | cons c rest ih =>
      rcases List.mem_cons.mp ha with rfl | har
      · have hrest := List.mem_of_ne_of_mem hne.symm hb
        exact .inl ((List.singleton_sublist.mpr hrest).cons_cons a)
      · rcases List.mem_cons.mp hb with rfl | hbr
        · exact .inr ((List.singleton_sublist.mpr har).cons_cons b)
        · exact (ih har hbr).imp (·.cons c) (·.cons c)

/-- In a list without duplicates they do not stand both ways. -/
theorem not_pair_sublist (hnodup : l.Nodup) (h : [a, b].Sublist l) : ¬ [b, a].Sublist l := by
  induction l with
  | nil => cases h
  | cons c rest ih =>
      obtain ⟨hc, hrest⟩ := List.nodup_cons.mp hnodup
      intro h'
      cases h with
      | cons _ h =>
          cases h' with
          | cons _ h' => exact ih hrest h h'
          | cons_cons _ h' => exact hc (h.subset (by simp))
      | cons_cons _ h =>
          cases h' with
          | cons _ h' => exact hc (h'.subset (by simp))
          | cons_cons _ _ => exact hc (List.singleton_sublist.mp h)

/-- A list that is in order up to one element is in order exactly if what stands in front of that
element may, and what stands behind it may. -/
theorem pairwise_iff_of_changed {R : α → α → Prop} {t : α} (hnodup : l.Nodup) (ht : t ∈ l)
    (hother : ∀ a b, a ≠ t → b ≠ t → [a, b].Sublist l → R a b) :
    l.Pairwise R ↔
      ∀ s ∈ l, s ≠ t → ([s, t].Sublist l → R s t) ∧ (¬ [s, t].Sublist l → R t s) := by
  rw [List.pairwise_iff_forall_sublist]
  constructor
  · intro h s hs hne
    exact ⟨@h s t, fun hnot => h ((pair_sublist_or hs ht hne).resolve_left hnot)⟩
  · intro h x y hxy
    have hne : x ≠ y := by
      rintro rfl
      exact not_pair_sublist hnodup hxy hxy
    by_cases hyt : y = t
    · subst hyt
      exact (h x (hxy.subset (by simp)) hne).1 hxy
    by_cases hxt : x = t
    · subst hxt
      exact (h y (hxy.subset (by simp)) hyt).2 (not_pair_sublist hnodup hxy)
    · exact hother x y hxt hyt hxy

end Iceee.Lib
