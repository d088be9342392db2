import Mathlib

/-!
# A work list

What can be reached along a relation, found with a list that grows while it is gone through: the
successors of an element that are not in the list yet are appended. The successors lie in a finite
set, so that the search ends.
-/

namespace Iceee.Lib.Worklist

open Relation

variable {α : Type} [DecidableEq α]

/-- Append an element that is not in the list yet. -/
def push (l : List α) (a : α) : List α := if a ∈ l then l else l ++ [a]

theorem mem_push {l : List α} {a x : α} : x ∈ push l a ↔ x ∈ l ∨ x = a := by
  rw [push]
  split
  · rename_i ha
    exact ⟨.inl, fun h => h.elim id fun hx => hx ▸ ha⟩
  · rw [List.mem_append, List.mem_singleton]

theorem prefix_push (l : List α) (a : α) : l <+: push l a := by
  rw [push]
  split
  · exact List.prefix_rfl
  · exact List.prefix_append l [a]

theorem mem_foldl_push {l as : List α} {x : α} : x ∈ as.foldl push l ↔ x ∈ l ∨ x ∈ as := by
  induction as generalizing l with
  | nil => simp
  | cons a as ih => rw [List.foldl_cons, ih, mem_push, List.mem_cons, or_assoc]

theorem prefix_foldl_push (l as : List α) : l <+: as.foldl push l := by
  induction as generalizing l with
  | nil => exact List.prefix_rfl
  | cons a as ih => exact (prefix_push l a).trans (ih (push l a))

theorem nodup_foldl_push {l : List α} (h : l.Nodup) (as : List α) : (as.foldl push l).Nodup := by
  induction as generalizing l with
  | nil => exact h
  | cons a as ih =>
      apply ih
      rw [push]
      split
      · exact h
      · rename_i ha
        rw [← List.concat_eq_append]
        exact h.concat ha

/-- Nothing is appended, or there was something new. -/
theorem foldl_push_cases (l as : List α) :
    as.foldl push l = l ∨ ∃ a ∈ as, a ∉ l := by
  by_cases hall : ∀ a ∈ as, a ∈ l
  · left
    induction as with
    | nil => rfl
    | cons a as ih =>
        rw [List.foldl_cons, push, if_pos (hall a List.mem_cons_self)]
        exact ih fun b hb => hall b (List.mem_cons_of_mem a hb)
  · right
    push Not at hall
    exact hall

/-- Go through the list from `pos` on. -/
def explore (next : α → List α) (bound : Finset α) (hbound : ∀ a, ∀ b ∈ next a, b ∈ bound)
    (openList : List α) (pos : Nat) : List α :=
  if h : pos < openList.length then
    explore next bound hbound ((next openList[pos]).foldl push openList) (pos + 1)
  else openList
termination_by ((bound \ openList.toFinset).card, openList.length - pos)
decreasing_by
  rcases foldl_push_cases openList (next openList[pos]) with hsame | ⟨a, ha, hnew⟩
  · rw [hsame]
    exact Prod.Lex.right _ (by omega)
  · apply Prod.Lex.left
    apply Finset.card_lt_card
    refine Finset.ssubset_iff_subset_ne.mpr ⟨?_, fun heq => ?_⟩
    · intro x hx
      rw [Finset.mem_sdiff, List.mem_toFinset] at hx ⊢
      exact ⟨hx.1, fun h => hx.2 (mem_foldl_push.mpr (.inl h))⟩
    · have hmem : a ∈ bound \ openList.toFinset :=
        Finset.mem_sdiff.mpr ⟨hbound _ a ha, by rwa [List.mem_toFinset]⟩
      rw [← heq, Finset.mem_sdiff, List.mem_toFinset] at hmem
      exact hmem.2 (mem_foldl_push.mpr (.inr ha))

variable (next : α → List α) (bound : Finset α) (hbound : ∀ a, ∀ b ∈ next a, b ∈ bound)

/-- The list is what can be reached from where it started, if the elements before `pos` have been
gone through. -/
theorem mem_explore {openList : List α} {pos : Nat}
    (hdone : ∀ i < pos, ∀ a, openList[i]? = some a → ∀ b ∈ next a, b ∈ openList) {x : α} :
    x ∈ explore next bound hbound openList pos ↔
      ∃ a ∈ openList, ReflTransGen (fun a b => b ∈ next a) a x := by
  induction openList, pos using explore.induct next bound hbound with
  | case1 openList pos hlt ih =>
      rw [explore, dif_pos hlt, ih]
      · constructor
        · rintro ⟨a, ha, hreach⟩
          rcases mem_foldl_push.mp ha with ha | ha
          · exact ⟨a, ha, hreach⟩
          · exact ⟨openList[pos], List.getElem_mem hlt, .head ha hreach⟩
        · rintro ⟨a, ha, hreach⟩
          exact ⟨a, mem_foldl_push.mpr (.inl ha), hreach⟩
      · intro i hi a ha b hb
        have hprefix := prefix_foldl_push openList (next openList[pos])
        have hold : openList[i]? = some a := by
          have hi' : i < openList.length := by omega
          rw [List.getElem?_eq_getElem (hi'.trans_le hprefix.length_le)] at ha
          rw [List.getElem?_eq_getElem hi', hprefix.getElem hi', ha]
        rcases Nat.lt_succ_iff_lt_or_eq.mp hi with hi | rfl
        · exact mem_foldl_push.mpr (.inl (hdone i hi a hold b hb))
        · rw [List.getElem?_eq_getElem hlt, Option.some_inj] at hold
          exact mem_foldl_push.mpr (.inr (hold ▸ hb))
  | case2 openList pos hlt =>
      rw [explore, dif_neg hlt]
      refine ⟨fun h => ⟨x, h, .refl⟩, ?_⟩
      rintro ⟨a, ha, hreach⟩
      induction hreach with
      | refl => exact ha
      | tail _ hstep ih =>
          obtain ⟨i, hi, hget⟩ := List.getElem_of_mem ih
          exact hdone i (by omega) _ (hget ▸ List.getElem?_eq_getElem hi) _ hstep

theorem nodup_explore {openList : List α} {pos : Nat} (h : openList.Nodup) :
    (explore next bound hbound openList pos).Nodup := by
  induction openList, pos using explore.induct next bound hbound with
  | case1 openList pos hlt ih =>
      rw [explore, dif_pos hlt]
      exact ih (nodup_foldl_push h _)
  | case2 openList pos hlt => rwa [explore, dif_neg hlt]

/-- From one element on the list is what can be reached from it. -/
theorem mem_explore_singleton {a x : α} :
    x ∈ explore next bound hbound [a] 0 ↔ ReflTransGen (fun a b => b ∈ next a) a x := by
  rw [mem_explore next bound hbound fun i hi => absurd hi (Nat.not_lt_zero i)]
  simp

end Iceee.Lib.Worklist
