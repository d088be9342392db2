import Mathlib

/-!
# Turns in cyclic order

Places `0, …, n - 1` stand in a circle. A cursor moves around it and stops at the first
place at or after it that is marked, and goes on behind that place.
-/

namespace Iceee.Lib.Cyclic

/-- How far place `k` is behind the cursor `c`, going around `n` places. -/
def ahead (n c k : Nat) : Nat := if c ≤ k then k - c else k + n - c

/-- Where a cursor that may have run off the end stands. -/
def wrap (n c : Nat) : Nat := if c ≥ n then 0 else c

variable {n c k k' : Nat}

theorem wrap_lt (hn : 0 < n) (c : Nat) : wrap n c < n := by
  unfold wrap
  split <;> omega

theorem ahead_self (n c : Nat) : ahead n c c = 0 := by simp [ahead]

theorem ahead_lt (hc : c < n) (hk : k < n) : ahead n c k < n := by
  unfold ahead
  split <;> omega

theorem ahead_injective (hc : c < n) (hk : k < n) (hk' : k' < n)
    (h : ahead n c k = ahead n c k') : k = k' := by
  unfold ahead at h
  split at h <;> split at h <;> omega

/-- From the next place on, everything else is one step nearer. -/
theorem ahead_wrap_succ (hc : c < n) (hk : k < n) (hne : k ≠ c) :
    ahead n (wrap n (c + 1)) k + 1 = ahead n c k := by
  unfold ahead wrap
  split <;> split <;> split <;> omega

/-- Seen from any cursor `c`, going on behind `k` counts on from `k`, and starts again with the
places up to `k`. -/
theorem ahead_behind (hc : c < n) (hk : k < n) (hk' : k' < n) :
    ahead n (wrap n (k + 1)) k' =
      if ahead n c k < ahead n c k' then ahead n c k' - ahead n c k - 1
      else ahead n c k' + n - ahead n c k - 1 := by
  rcases Nat.lt_or_ge k' (k + 1) with hle | hgt
  · -- `k'` comes up again after the end of the circle
    have hround : ahead n (wrap n (k + 1)) k' = k' + n - (k + 1) := by
      unfold ahead wrap
      split <;> split <;> omega
    rw [hround]
    unfold ahead
    split <;> split <;> split <;> omega
  · have hround : ahead n (wrap n (k + 1)) k' = k' - (k + 1) := by
      unfold ahead wrap
      split
      · omega
      · rfl
    rw [hround]
    unfold ahead
    split <;> split <;> split <;> omega

/-- From behind a place, the place itself comes last. -/
theorem ahead_last (hk : k < n) : ahead n (wrap n (k + 1)) k = n - 1 := by
  unfold ahead wrap
  split <;> split <;> omega

/-- `k` is the first marked place at or after the cursor. -/
structure FirstFrom (marked : Nat → Prop) (n c k : Nat) : Prop where
  lt : k < n
  isMarked : marked k
  first : ∀ j, j < n → marked j → ahead n c k ≤ ahead n c j

variable {marked : Nat → Prop} {s : Nat → Nat} {i j a b : Nat}

/-- Stopping behind `k`, the next stop is the nearest marked place further on, as long as
the last place of the circle is marked and is not `k` itself. -/
theorem FirstFrom.next (hc : c < n) (hk : k < n) (h : FirstFrom marked n (wrap n (k + 1)) k')
    (ha : a < n) (hmarked : marked a) (hlt : ahead n c k < ahead n c a) :
    ahead n c k < ahead n c k' ∧
      ∀ b, b < n → marked b → ahead n c k < ahead n c b → ahead n c k' ≤ ahead n c b := by
  have hbehind := ahead_behind hc hk h.lt
  have hk'n := ahead_lt hc h.lt
  have hfurther : ahead n c k < ahead n c k' := by
    have hfirst := h.first a ha hmarked
    have han := ahead_lt hc ha
    rw [hbehind, ahead_behind hc hk ha, if_pos hlt] at hfirst
    split at hfirst
    · assumption
    · omega
  refine ⟨hfurther, fun b hb hmb hkb => ?_⟩
  have hfirst := h.first b hb hmb
  rw [hbehind, ahead_behind hc hk hb, if_pos hkb, if_pos hfurther] at hfirst
  omega

/-- A sequence of stops, each the first one behind the stop before. -/
def Turns (marked : Nat → Prop) (n : Nat) (s : Nat → Nat) : Prop :=
  ∀ i, FirstFrom marked n (wrap n (s i + 1)) (s (i + 1))

section Fair

variable (hs : Turns marked n s) (hi : s i < n) (hj : s j = s i)
  (hbetween : ∀ k, i < k → k < j → s k ≠ s i)

include hs hi in
theorem Turns.lt (k : Nat) (hk : i ≤ k) : s k < n := by
  induction k, hk using Nat.le_induction with
  | base => exact hi
  | succ k _ _ => exact (hs k).lt

include hs hi hj hbetween in
/-- Between two stops at a place, the stops move away from it. -/
theorem Turns.ahead_lt_succ {k : Nat} (hik : i < k) (hkj : k < j) :
    ahead n (wrap n (s i + 1)) (s k) < ahead n (wrap n (s i + 1)) (s (k + 1)) ∧
      ∀ b, b < n → marked b →
        ahead n (wrap n (s i + 1)) (s k) < ahead n (wrap n (s i + 1)) b →
        ahead n (wrap n (s i + 1)) (s (k + 1)) ≤ ahead n (wrap n (s i + 1)) b := by
  have hn : 0 < n := by omega
  have hc := wrap_lt hn (s i + 1)
  have hk := hs.lt hi k hik.le
  have hmarked : marked (s i) := by
    obtain ⟨j, rfl⟩ : ∃ j', j = j' + 1 := ⟨j - 1, by omega⟩
    rw [← hj]
    exact (hs j).isMarked
  have hne : ahead n (wrap n (s i + 1)) (s k) ≠ ahead n (wrap n (s i + 1)) (s i) := fun h =>
    hbetween k hik hkj (ahead_injective hc hk hi h)
  have hlast := ahead_last hi
  have hlt := ahead_lt hc hk
  exact (hs k).next hc hk hi hmarked (by omega)

include hs hi hj hbetween in
theorem Turns.strictMono {k l : Nat} (hik : i < k) (hkl : k < l) (hlj : l ≤ j) :
    ahead n (wrap n (s i + 1)) (s k) < ahead n (wrap n (s i + 1)) (s l) := by
  induction l, Nat.succ_le_of_lt hkl using Nat.le_induction with
  | base => exact (hs.ahead_lt_succ hi hj hbetween hik (by omega)).1
  | succ l hl ih =>
      calc
        ahead n (wrap n (s i + 1)) (s k) < ahead n (wrap n (s i + 1)) (s l) :=
          ih (by omega) (by omega)
        _ < ahead n (wrap n (s i + 1)) (s (l + 1)) :=
          (hs.ahead_lt_succ hi hj hbetween (by omega) (by omega)).1

include hs hi hj hbetween in
/-- Every marked place is passed by once it has had its stop. -/
theorem Turns.reached (hb : b < n) (hmarked : marked b) {k : Nat} (hik : i < k) (hkj : k ≤ j) :
    (∃ l, i < l ∧ l ≤ k ∧ s l = b) ∨
      ahead n (wrap n (s i + 1)) (s k) < ahead n (wrap n (s i + 1)) b := by
  have hn : 0 < n := by omega
  have hc := wrap_lt hn (s i + 1)
  have hstop : ∀ l, i < l → ahead n (wrap n (s i + 1)) (s l) ≤ ahead n (wrap n (s i + 1)) b →
      (∃ l', i < l' ∧ l' ≤ l ∧ s l' = b) ∨
        ahead n (wrap n (s i + 1)) (s l) < ahead n (wrap n (s i + 1)) b := by
    intro l hil hle
    rcases Nat.lt_or_eq_of_le hle with hlt | heq
    · exact .inr hlt
    · exact .inl ⟨l, hil, le_rfl, ahead_injective hc (hs.lt hi l hil.le) hb heq⟩
  induction k, Nat.succ_le_of_lt hik using Nat.le_induction with
  | base => exact hstop _ (Nat.lt_succ_self i) ((hs i).first b hb hmarked)
  | succ k hk ih =>
      rcases ih (by omega) (by omega) with ⟨l, hil, hlk, hl⟩ | hlt
      · exact .inl ⟨l, hil, by omega, hl⟩
      · have hnext := (hs.ahead_lt_succ hi hj hbetween (by omega : i < k) (by omega)).2
        exact hstop _ (by omega) (hnext b hb hmarked hlt)

include hs hi hj hbetween in
/-- Between two consecutive stops at a place, every other marked place has exactly one. -/
theorem Turns.fair (hij : i < j) (hb : b < n) (hmarked : marked b) (hne : b ≠ s i) :
    ∃! k, i < k ∧ k < j ∧ s k = b := by
  have hn : 0 < n := by omega
  have hc := wrap_lt hn (s i + 1)
  have hexists : ∃ k, i < k ∧ k < j ∧ s k = b := by
    rcases hs.reached hi hj hbetween hb hmarked hij le_rfl with ⟨k, hik, hkj, hk⟩ | hlt
    · have hkne : k ≠ j := fun h => hne (by rw [← hk, h, hj])
      exact ⟨k, hik, by omega, hk⟩
    · have hlast := ahead_last hi
      have hbn := ahead_lt hc hb
      rw [hj] at hlt
      omega
  obtain ⟨k, hik, hkj, hk⟩ := hexists
  refine ⟨k, ⟨hik, hkj, hk⟩, fun l ⟨hil, hlj, hl⟩ => ?_⟩
  -- two stops at the same place would have to be ahead of each other
  rcases Nat.lt_trichotomy k l with hkl | hkl | hkl
  · have hlt := hs.strictMono hi hj hbetween hik hkl hlj.le
    rw [hk, hl] at hlt
    omega
  · exact hkl.symm
  · have hlt := hs.strictMono hi hj hbetween hil hkl hkj.le
    rw [hk, hl] at hlt
    omega

end Fair

end Iceee.Lib.Cyclic
