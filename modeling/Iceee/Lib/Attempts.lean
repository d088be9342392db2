import Mathlib

/-!
# Searching without going back

A matcher that reads a text once, and starts the pattern anew behind a letter that does not continue
it. It finds the pattern where the text in front of it can be cut into failed attempts.
-/

namespace Iceee.Lib

variable {α : Type*} {pat text : List α}

/-- The text is a sequence of failed attempts: a part of the pattern from its start, then a letter
that does not continue it. -/
inductive Attempts (pat : List α) : List α → Prop
  | nil : Attempts pat []
  | cons {done rest text : List α} {c d : α} (hpat : pat = done ++ d :: rest) (hne : c ≠ d)
      (tail : Attempts pat text) : Attempts pat (done ++ c :: text)

/-- The pattern stands where an attempt begins. -/
def Attempted (pat text : List α) : Prop :=
  ∃ front back, text = front ++ (pat ++ back) ∧ Attempts pat front

theorem Attempted.isInfix (h : Attempted pat text) : pat <:+: text := by
  obtain ⟨front, back, rfl, _⟩ := h
  exact ⟨front, back, List.append_assoc _ _ _⟩

theorem attempted_append (pat back : List α) : Attempted pat (pat ++ back) :=
  ⟨[], back, rfl, .nil⟩

/-- In front of a failed attempt nothing is found that is not found behind it. -/
theorem attempted_failed_iff {done rest : List α} {c d : α} (hpat : pat = done ++ d :: rest)
    (hne : c ≠ d) : Attempted pat (done ++ c :: text) ↔ Attempted pat text := by
  constructor
  · rintro ⟨front, back, htext, hfront⟩
    cases hfront with
    | nil =>
        rw [List.nil_append, hpat, List.append_assoc, List.append_cancel_left_eq,
          List.cons_append, List.cons.injEq] at htext
        exact absurd htext.1 hne
    | @cons done' rest' text' c' d' hpat' hne' tail =>
        -- two failed attempts at one place end at the same letter
        rw [List.append_assoc, List.cons_append] at htext
        have hsame := hpat.symm.trans hpat'
        rcases List.append_eq_append_iff.mp htext with ⟨more, hdone, hrest⟩ | ⟨more, hdone, hrest⟩
        · cases more with
          | nil =>
              rw [List.nil_append, List.cons.injEq] at hrest
              exact ⟨text', back, hrest.2, tail⟩
          | cons x more =>
              rw [List.cons_append, List.cons.injEq] at hrest
              rw [hdone, List.append_assoc, List.append_cancel_left_eq, List.cons_append,
                List.cons.injEq] at hsame
              exact absurd (hrest.1.trans hsame.1.symm) hne
        · cases more with
          | nil =>
              rw [List.nil_append, List.cons.injEq] at hrest
              exact ⟨text', back, hrest.2.symm, tail⟩
          | cons x more =>
              rw [List.cons_append, List.cons.injEq] at hrest
              rw [hdone, List.append_assoc, List.append_cancel_left_eq, List.cons_append,
                List.cons.injEq] at hsame
              exact absurd (hrest.1.trans hsame.1) hne'
  · rintro ⟨front, back, rfl, hfront⟩
    exact ⟨done ++ c :: front, back, by simp, .cons hpat hne hfront⟩

/-! ### Patterns that are always found -/

theorem not_isPrefix_replicate {a c : α} {n k : ℕ} (hca : c ≠ a) (hk : k < n) :
    ¬List.replicate n a <+: List.replicate k a ++ c :: text := by
  induction k generalizing n with
  | zero =>
      obtain ⟨m, rfl⟩ := Nat.exists_eq_add_of_lt hk
      rw [Nat.zero_add, List.replicate_succ, List.replicate_zero, List.nil_append,
        List.cons_prefix_cons]
      exact fun h => hca h.1.symm
  | succ k ih =>
      obtain ⟨m, rfl⟩ : ∃ m, n = m + 1 := ⟨n - 1, by omega⟩
      rw [List.replicate_succ, List.replicate_succ, List.cons_append, List.cons_prefix_cons]
      exact fun h => ih (by omega) h.2

/-- No occurrence reaches over another letter. -/
theorem replicate_infix_of_failed {a c : α} {n k : ℕ} (hca : c ≠ a) (hk : k < n)
    (h : List.replicate n a <:+: List.replicate k a ++ c :: text) :
    List.replicate n a <:+: text := by
  induction k with
  | zero =>
      rcases List.infix_cons_iff.mp h with hprefix | hinfix
      · exact absurd hprefix (not_isPrefix_replicate (k := 0) hca hk)
      · exact hinfix
  | succ k ih =>
      rcases List.infix_cons_iff.mp h with hprefix | hinfix
      · exact absurd hprefix (not_isPrefix_replicate (k := k + 1) hca hk)
      · exact ih (by omega) hinfix

/-- A pattern of one repeated letter is found wherever it stands. -/
theorem attempted_replicate {a : α} {n k : ℕ} (hk : k < n)
    (h : List.replicate n a <:+: List.replicate k a ++ text) :
    Attempted (List.replicate n a) (List.replicate k a ++ text) := by
  induction text generalizing k with
  | nil =>
      have hle := h.length_le
      simp only [List.append_nil, List.length_replicate] at hle
      omega
  | cons c text ih =>
      by_cases hca : c = a
      · subst hca
        have hmore : List.replicate k c ++ c :: text = List.replicate (k + 1) c ++ text := by
          rw [List.replicate_succ', List.append_assoc, List.singleton_append]
        rw [hmore] at h ⊢
        rcases Nat.lt_or_eq_of_le (Nat.succ_le_of_lt hk) with hlt | rfl
        · exact ih hlt h
        · exact attempted_append _ text
      · have hpat : List.replicate n a =
            List.replicate k a ++ a :: List.replicate (n - k - 1) a := by
          rw [← List.replicate_succ, List.replicate_append_replicate]
          congr 1
          omega
        rw [attempted_failed_iff hpat hca]
        exact ih (k := 0) (by omega) (replicate_infix_of_failed hca hk h)

/-- Only a pattern of one repeated letter is found behind its own first letter. -/
theorem attempted_cons_self_iff {a : α} {pat : List α} :
    Attempted (a :: pat) (a :: a :: pat) ↔ ∃ n, a :: pat = List.replicate n a := by
  constructor
  · intro hfound
    by_contra hmixed
    -- an attempt ends at the letter behind the first run
    have hrun (k : ℕ) (rest : List α) (hsplit : a :: pat = List.replicate k a ++ rest) :
        ∃ k b rest, a :: pat = List.replicate k a ++ b :: rest ∧ b ≠ a := by
      induction rest generalizing k with
      | nil => exact absurd ⟨k, by rw [hsplit, List.append_nil]⟩ hmixed
      | cons b rest ih =>
          by_cases hba : b = a
          · refine ih (k + 1) ?_
            rw [hsplit, hba, List.replicate_succ', List.append_assoc, List.singleton_append]
          · exact ⟨k, b, rest, hsplit, hba⟩
    obtain ⟨k, b, rest, hsplit, hba⟩ := hrun 0 (a :: pat) rfl
    have htext : a :: a :: pat = List.replicate k a ++ a :: (b :: rest) := by
      rw [hsplit, ← List.cons_append, ← List.replicate_succ, List.replicate_succ',
        List.append_assoc, List.singleton_append]
    rw [htext, attempted_failed_iff hsplit hba.symm] at hfound
    have hle := hfound.isInfix.length_le
    rw [hsplit, List.length_append, List.length_replicate] at hle
    have hpos : k ≠ 0 := by
      rintro rfl
      rw [List.replicate_zero, List.nil_append, List.cons.injEq] at hsplit
      exact hba hsplit.1.symm
    omega
  · rintro ⟨n, hn⟩
    have hpos : 0 < n := Nat.pos_of_ne_zero fun h => by simp [h] at hn
    have hinfix : List.replicate n a <:+: a :: List.replicate n a :=
      List.infix_cons List.infix_rfl
    rw [hn]
    exact attempted_replicate (k := 0) hpos hinfix

/-! ### The matcher -/

variable [DecidableEq α]

/-- The matcher; `left` is what the attempt still has to match. Without anything left it reads past
the end of the pattern. -/
def attempt (pat : List α) : List α → List α → Option Bool
  | _, [] => some false
  | [], _ :: _ => none
  | d :: left, c :: text =>
      if c = d then if left = [] then some true else attempt pat left text
      else attempt pat pat text

/-- What the matcher finds, with a part of the pattern already matched. -/
theorem attempt_eq {done left : List α} (hpat : pat = done ++ left) (hleft : left ≠ [])
    (text : List α) : ∃ b, attempt pat left text = some b ∧
      (b = true ↔ Attempted pat (done ++ text)) := by
  induction text generalizing done left with
  | nil =>
      refine ⟨false, by cases left <;> rfl, iff_of_false Bool.false_ne_true ?_⟩
      rintro ⟨front, back, htext, _⟩
      have hlength := congrArg List.length htext
      have hpos := List.length_pos_of_ne_nil hleft
      simp only [hpat, List.append_nil, List.length_append] at hlength
      omega
  | cons c text ih =>
      obtain ⟨d, left, rfl⟩ := List.exists_cons_of_ne_nil hleft
      rw [attempt]
      by_cases hcd : c = d
      · subst hcd
        have hmore : done ++ c :: text = done ++ [c] ++ text := by simp
        rw [if_pos rfl, hmore]
        by_cases hlast : left = []
        · subst hlast
          exact ⟨true, if_pos rfl, iff_of_true rfl (hpat ▸ attempted_append pat text)⟩
        · rw [if_neg hlast]
          exact ih (by rw [hpat]; simp) hlast
      · rw [if_neg hcd, attempted_failed_iff hpat hcd]
        exact ih (List.nil_append _).symm (by rw [hpat]; simp)

theorem attempt_self_iff (hpat : pat ≠ []) (text : List α) {b : Bool} :
    attempt pat pat text = some b ↔ (b = true ↔ Attempted pat text) := by
  obtain ⟨b', hrun, hb'⟩ := attempt_eq (List.nil_append pat).symm hpat text
  rw [List.nil_append] at hb'
  rw [hrun, Option.some.injEq, ← hb']
  cases b <;> cases b' <;> simp

end Iceee.Lib
