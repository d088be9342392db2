import Mathlib

/-!
# Dropping equal neighbours

An element that equals the one kept before it is dropped. All elements stay represented; each of
them is there once exactly where equal elements stood together.
-/

namespace Iceee.Lib

variable {α : Type*}

/-- Equal elements stand together: an element that comes again comes next. -/
def Grouped : List α → Prop
  | [] => True
  | [_] => True
  | a :: b :: l => (a ∈ b :: l → a = b) ∧ Grouped (b :: l)

variable [DecidableEq α]

theorem mem_destutter'_ne {l : List α} {a x : α} :
    x ∈ l.destutter' (· ≠ ·) a ↔ x ∈ a :: l := by
  induction l generalizing a with
  | nil => rfl
  | cons b l ih =>
      by_cases hab : a ≠ b
      · rw [List.destutter'_cons_pos _ hab, List.mem_cons, ih]
        exact List.mem_cons.symm
      · rw [List.destutter'_cons_neg _ hab, ih, not_not.mp hab]
        simp

/-- Every element is still there. -/
theorem mem_destutter_ne {l : List α} {x : α} : x ∈ l.destutter (· ≠ ·) ↔ x ∈ l := by
  cases l with
  | nil => rfl
  | cons a l => exact mem_destutter'_ne

theorem nodup_destutter'_iff {l : List α} {a : α} :
    (l.destutter' (· ≠ ·) a).Nodup ↔ Grouped (a :: l) := by
  induction l generalizing a with
  | nil => simp [Grouped]
  | cons b l ih =>
      by_cases hab : a ≠ b
      · rw [List.destutter'_cons_pos _ hab, List.nodup_cons, mem_destutter'_ne, ih, Grouped]
        exact and_congr_left' (by simp [hab])
      · obtain rfl := not_not.mp hab
        rw [List.destutter'_cons_neg _ hab, ih, Grouped]
        simp

/-- Every element is there once exactly where equal elements stood together. -/
theorem nodup_destutter_iff {l : List α} : (l.destutter (· ≠ ·)).Nodup ↔ Grouped l := by
  cases l with
  | nil => simp [Grouped]
  | cons a l => exact nodup_destutter'_iff

end Iceee.Lib
