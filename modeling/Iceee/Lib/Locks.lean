import Mathlib

/-!
# Entering and leaving recursive locks

A run of a program enters and leaves locks; a lock that is held can be entered again. A run is
balanced when it leaves every lock as often as it has entered it, and never before it has.
-/

namespace Iceee.Lib

inductive LockEvent (σ : Type) where
  | enter (s : σ)
  | leave (s : σ)
  deriving DecidableEq, Repr

namespace LockEvent

variable {σ : Type} [DecidableEq σ]

/-- How often a lock is held after a run; nothing when it is left without being held. -/
def depth (s : σ) : List (LockEvent σ) → Nat → Option Nat
  | [], n => some n
  | .enter s' :: t, n => depth s t (if s' = s then n + 1 else n)
  | .leave s' :: t, n =>
      if s' = s then if n = 0 then none else depth s t (n - 1)
      else depth s t n

/-- The run leaves what it has entered. -/
def Balanced (t : List (LockEvent σ)) : Prop := ∀ s, depth s t 0 = some 0

variable {t t' : List (LockEvent σ)}

theorem depth_append (s : σ) (t t' : List (LockEvent σ)) (n : Nat) :
    depth s (t ++ t') n = (depth s t n).bind (depth s t') := by
  induction t generalizing n with
  | nil => rfl
  | cons e t ih =>
      cases e with
      | enter s' => exact ih _
      | leave s' =>
          by_cases hs : s' = s
          · by_cases hn : n = 0
            · simp [depth, hs, hn]
            · simpa [depth, hs, hn] using ih (n - 1)
          · simpa [depth, hs] using ih n

/-- Holding a lock already changes nothing. -/
theorem depth_add (s : σ) {m k : Nat} (h : depth s t m = some k) (n : Nat) :
    depth s t (m + n) = some (k + n) := by
  induction t generalizing m with
  | nil => exact congrArg some (congrArg (· + n) (Option.some_inj.mp h))
  | cons e t ih =>
      cases e with
      | enter s' =>
          by_cases hs : s' = s
          · rw [depth, if_pos hs] at h ⊢
            rw [Nat.add_right_comm]
            exact ih h
          · rw [depth, if_neg hs] at h ⊢
            exact ih h
      | leave s' =>
          by_cases hs : s' = s
          · by_cases hm : m = 0
            · simp [depth, hs, hm] at h
            · rw [depth, if_pos hs, if_neg hm] at h
              rw [depth, if_pos hs, if_neg (by omega),
                Nat.sub_add_comm (Nat.one_le_iff_ne_zero.mpr hm)]
              exact ih h
          · rw [depth, if_neg hs] at h ⊢
            exact ih h

namespace Balanced

/-- A balanced run leaves every lock as it was. -/
theorem depth_eq (h : Balanced t) (s : σ) (n : Nat) : depth s t n = some n := by
  have hn := depth_add s (h s) n
  rwa [zero_add] at hn

@[simp] theorem nil : Balanced ([] : List (LockEvent σ)) := fun _ => rfl

theorem append (h : Balanced t) (h' : Balanced t') : Balanced (t ++ t') := by
  intro s
  rw [depth_append, h s]
  exact h' s

theorem flatten {l : List (List (LockEvent σ))} (h : ∀ t ∈ l, Balanced t) :
    Balanced l.flatten := by
  induction l with
  | nil => exact nil
  | cons t l ih =>
      exact (h t List.mem_cons_self).append (ih fun t ht => h t (List.mem_cons_of_mem _ ht))

end Balanced

theorem depth_enters (s : σ) (ss : List σ) (n : Nat) :
    depth s (ss.map .enter) n = some (n + ss.count s) := by
  induction ss generalizing n with
  | nil => rfl
  | cons s' ss ih =>
      rw [List.map_cons, depth, ih, List.count_cons]
      by_cases hs : s' = s
      · simp [hs, Nat.add_comm, Nat.add_left_comm]
      · simp [hs]

theorem depth_leaves (s : σ) (ss : List σ) (n : Nat) :
    depth s (ss.map .leave) (n + ss.count s) = some n := by
  induction ss generalizing n with
  | nil => rfl
  | cons s' ss ih =>
      rw [List.map_cons, depth, List.count_cons]
      by_cases hs : s' = s
      · simpa [hs, ← Nat.add_assoc] using ih n
      · simpa [hs] using ih n

/-- Entering some locks before a balanced run and leaving them after it. -/
theorem Balanced.within (h : Balanced t) (ss : List σ) :
    Balanced (ss.map .enter ++ (t ++ ss.map .leave)) := by
  intro s
  rw [depth_append, depth_enters, Option.bind_some, depth_append, h.depth_eq, Option.bind_some]
  exact depth_leaves s ss 0

/-- A lock that is entered before a balanced run is still held after it. -/
theorem not_balanced_enter (h : Balanced t) (s : σ) : ¬Balanced (.enter s :: t) := by
  intro hbalanced
  have hheld := hbalanced s
  rw [depth, if_pos rfl, h.depth_eq] at hheld
  exact absurd hheld (by simp)

end LockEvent

end Iceee.Lib
