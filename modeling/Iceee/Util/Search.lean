import Iceee.Lib.Attempts
import Iceee.Lib.Text

/-!
# Searching without case

`CaseInsensitiveStringFind` reads the text once. Behind a letter that does not match it starts the
needle anew, and never looks at that letter again.

## Main result

* `caseInsensitiveStringFind_iff`: when it finds exactly what occurs.

## Implementation notes

To read the character at the end of the needle has no result. The letters are those of ASCII.
-/

namespace Iceee.Util

open Lib

/-- The loop of `CaseInsensitiveStringFind`; `c2` is what is left of the needle. -/
def findFrom (str2 : Text) : Text → Text → Option Bool
  | _, [] => some false
  | [], _ :: _ => none
  | d :: c2, c :: c1 =>
      if c.toLower = d.toLower then if c2 = [] then some true else findFrom str2 c2 c1
      else findFrom str2 str2 c1

/-- `CaseInsensitiveStringFind`. -/
def caseInsensitiveStringFind (str1 str2 : Text) : Option Bool := findFrom str2 str2 str1

/-- A text in lower case. -/
def lower (t : Text) : Text := t.map Char.toLower

/-- The needle occurs, without regard to case. -/
def Occurs (str1 str2 : Text) : Prop := lower str2 <:+: lower str1

instance (str1 str2 : Text) : Decidable (Occurs str1 str2) :=
  inferInstanceAs (Decidable (_ <:+: _))

theorem lower_eq_nil {t : Text} : lower t = [] ↔ t = [] := List.map_eq_nil_iff

/-- The loop is the matcher on the texts in lower case. -/
theorem findFrom_eq (str2 c2 c1 : Text) :
    findFrom str2 c2 c1 = attempt (lower str2) (lower c2) (lower c1) := by
  induction c1 generalizing c2 with
  | nil => cases c2 <;> rfl
  | cons c c1 ih =>
      cases c2 with
      | nil => rfl
      | cons d c2 =>
          rw [findFrom, ih, ih]
          simp only [lower, List.map_cons, attempt, List.map_eq_nil_iff]

/-- The result is right exactly when the needle is not empty and, if it occurs, the text in front of
one of its occurrences is a sequence of failed attempts. -/
theorem caseInsensitiveStringFind_iff (str1 str2 : Text) :
    caseInsensitiveStringFind str1 str2 = some (decide (Occurs str1 str2)) ↔
      str2 ≠ [] ∧ (Occurs str1 str2 → Attempted (lower str2) (lower str1)) := by
  rw [caseInsensitiveStringFind, findFrom_eq]
  by_cases hempty : str2 = []
  · subst hempty
    refine iff_of_false ?_ fun h => h.1 rfl
    have hoccurs : Occurs str1 [] := List.nil_infix
    rw [decide_eq_true hoccurs]
    cases str1 <;> simp [lower, attempt]
  · rw [attempt_self_iff (mt lower_eq_nil.mp hempty), decide_eq_true_iff]
    exact ⟨fun h => ⟨hempty, h.mp⟩, fun h => ⟨h.2, Attempted.isInfix⟩⟩

/-- `aab` is not searched for `ab` behind its first letter. -/
theorem caseInsensitiveStringFind_aab :
    caseInsensitiveStringFind "Aab".toList "ab".toList = some false ∧
      Occurs "Aab".toList "ab".toList := by
  decide

theorem caseInsensitiveStringFind_of_ne_nil (str1 : Text) {str2 : Text} (h : str2 ≠ []) :
    caseInsensitiveStringFind str1 str2 = some (decide (Occurs str1 str2)) ↔
      (Occurs str1 str2 → Attempted (lower str2) (lower str1)) := by
  rw [caseInsensitiveStringFind, findFrom_eq, attempt_self_iff (mt lower_eq_nil.mp h),
    decide_eq_true_iff]
  exact ⟨Iff.mp, fun h => ⟨h, Attempted.isInfix⟩⟩

/-- A needle that is found behind its own first letter has no other. -/
theorem oneLetter_of_attempted {d : Char} {c2 : Text}
    (h : Attempted (lower (d :: c2)) (lower (d :: d :: c2))) :
    ∃ a n, lower (d :: c2) = List.replicate (n + 1) a := by
  obtain ⟨n, hn⟩ := attempted_cons_self_iff.mp h
  cases n with
  | zero => cases hn
  | succ n => exact ⟨d.toLower, n, hn⟩

/-- The needles that are found exactly where they occur, in whatever text, are those of one letter,
once or several times. Any other one occurs behind its own first letter and is not found there; the
empty one is not found in the empty text. -/
theorem forall_caseInsensitiveStringFind_iff (str2 : Text) :
    ((∀ str1, caseInsensitiveStringFind str1 str2 = some (decide (Occurs str1 str2))) ↔
      ∃ a n, lower str2 = List.replicate (n + 1) a) ∧
    (∀ d ∈ str2.head?, (¬∃ a n, lower str2 = List.replicate (n + 1) a) →
      Occurs (d :: str2) str2 ∧ caseInsensitiveStringFind (d :: str2) str2 = some false) ∧
    (str2 = [] → caseInsensitiveStringFind [] str2 = some false) := by
  rcases str2 with _ | ⟨d, c2⟩
  · refine ⟨iff_of_false (fun hall => ?_) fun ⟨a, n, hn⟩ => ?_, fun _ hd => ?_, fun _ => rfl⟩
    · exact absurd (hall []) (by decide)
    · cases hn
    · cases hd
  · have hoccurs : Occurs (d :: d :: c2) (d :: c2) := List.infix_cons List.infix_rfl
    refine ⟨?_, fun _ hd hother => ?_, fun hnil => by cases hnil⟩
    · simp only [caseInsensitiveStringFind_of_ne_nil _ (List.cons_ne_nil d c2)]
      constructor
      · intro hall
        exact oneLetter_of_attempted (hall (d :: d :: c2) hoccurs)
      · rintro ⟨a, n, hn⟩ str1 hoccurs
        rw [Occurs, hn] at hoccurs
        rw [hn]
        exact attempted_replicate (k := 0) n.succ_pos hoccurs
    · obtain rfl := Option.some.inj hd
      refine ⟨hoccurs, ?_⟩
      rw [caseInsensitiveStringFind, findFrom_eq,
        attempt_self_iff (mt lower_eq_nil.mp (List.cons_ne_nil d c2))]
      exact iff_of_false Bool.false_ne_true fun hfound => hother (oneLetter_of_attempted hfound)

end Iceee.Util
