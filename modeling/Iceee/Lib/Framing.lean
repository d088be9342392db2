import Mathlib

/-!
# Framed streams

A framing says which frame stands complete at the front of a stream, if any, and how long it
is. What it says does not change when more of the stream arrives. Cutting a stream into
frames leaves a tail without a complete frame; cutting it as it arrives in pieces leaves the
same frames and the same tail.
-/

namespace Iceee.Lib

/-- How frames stand in a stream. -/
structure Framing (β μ : Type*) where
  /-- The frame at the front, and its length. -/
  next : List β → Option (μ × Nat)
  next_pos : ∀ {xs m n}, next xs = some (m, n) → 0 < n
  next_le : ∀ {xs m n}, next xs = some (m, n) → n ≤ xs.length
  next_append : ∀ {xs m n} (ys), next xs = some (m, n) → next (xs ++ ys) = some (m, n)

namespace Framing

variable {β μ : Type*} (F : Framing β μ)

/-- Cut off frames, at most as many as the first argument; a frame is given with its place. -/
def cutFuel : Nat → Nat → List β → List (Nat × μ) × List β
  | 0, _, xs => ([], xs)
  | fuel + 1, place, xs =>
      match F.next xs with
      | none => ([], xs)
      | some (m, n) =>
          let r := cutFuel fuel (place + n) (xs.drop n)
          ((place, m) :: r.1, r.2)

/-- The frames of a stream that begins at a place, and what is left of it. -/
def cut (place : Nat) (xs : List β) : List (Nat × μ) × List β := F.cutFuel xs.length place xs

variable {F} {place : Nat} {xs : List β}

theorem cutFuel_of_le {fuel fuel' : Nat} (h : xs.length ≤ fuel) (h' : xs.length ≤ fuel') :
    F.cutFuel fuel place xs = F.cutFuel fuel' place xs := by
  induction fuel generalizing fuel' place xs with
  | zero =>
      have hnil : xs = [] := List.length_eq_zero_iff.mp (Nat.le_zero.mp h)
      subst hnil
      cases fuel' with
      | zero => rfl
      | succ fuel' =>
          cases hn : F.next [] with
          | none => simp [cutFuel, hn]
          | some p =>
              have hpos := F.next_pos hn
              have hle := F.next_le hn
              simp only [List.length_nil] at hle
              omega
  | succ fuel ih =>
      cases hn : F.next xs with
      | none => cases fuel' <;> simp [cutFuel, hn]
      | some p =>
          have hpos := F.next_pos hn
          have hle := F.next_le hn
          cases fuel' with
          | zero => omega
          | succ fuel' =>
              have hrest : F.cutFuel fuel (place + p.2) (xs.drop p.2) =
                  F.cutFuel fuel' (place + p.2) (xs.drop p.2) := by
                apply ih
                · rw [List.length_drop]
                  omega
                · rw [List.length_drop]
                  omega
              simp only [cutFuel, hn, hrest]

theorem cut_of_none (h : F.next xs = none) : F.cut place xs = ([], xs) := by
  unfold cut
  cases xs.length <;> simp [cutFuel, h]

theorem cut_of_some {m : μ} {n : Nat} (h : F.next xs = some (m, n)) :
    F.cut place xs =
      ((place, m) :: (F.cut (place + n) (xs.drop n)).1, (F.cut (place + n) (xs.drop n)).2) := by
  have hpos := F.next_pos h
  have hle := F.next_le h
  obtain ⟨k, hk⟩ : ∃ k, xs.length = k + 1 := ⟨xs.length - 1, by omega⟩
  have hrest : F.cutFuel k (place + n) (xs.drop n) = F.cut (place + n) (xs.drop n) := by
    apply cutFuel_of_le _ le_rfl
    rw [List.length_drop]
    omega
  rw [cut, hk, cutFuel, h]
  simp only [hrest]

/-- Frames are cut off one by one. -/
theorem cut_induction {P : Nat → List β → Prop}
    (stop : ∀ place xs, F.next xs = none → P place xs)
    (step : ∀ place xs m n, F.next xs = some (m, n) → P (place + n) (xs.drop n) → P place xs)
    (place : Nat) (xs : List β) : P place xs := by
  generalize hk : xs.length = k
  induction k using Nat.strong_induction_on generalizing place xs with
  | _ k ih =>
      cases hn : F.next xs with
      | none => exact stop place xs hn
      | some p =>
          have hpos := F.next_pos hn
          have hle := F.next_le hn
          apply step place xs p.1 p.2 hn
          exact ih _ (by rw [List.length_drop]; omega) _ _ rfl

/-- Nothing complete is left. -/
theorem next_tail (place : Nat) (xs : List β) : F.next (F.cut place xs).2 = none := by
  induction place, xs using cut_induction (F := F) with
  | stop place xs h => rwa [cut_of_none h]
  | step place xs m n h ih => rwa [cut_of_some h]

/-- What is left is the end of the stream. -/
theorem tail_eq_drop (place : Nat) (xs : List β) :
    (F.cut place xs).2.length ≤ xs.length ∧
      (F.cut place xs).2 = xs.drop (xs.length - (F.cut place xs).2.length) := by
  induction place, xs using cut_induction (F := F) with
  | stop place xs h => simp [cut_of_none h]
  | step place xs m n h ih =>
      have hle := F.next_le h
      rw [cut_of_some h]
      rw [List.length_drop] at ih
      dsimp only
      refine ⟨by omega, ?_⟩
      conv_lhs => rw [ih.2]
      rw [List.drop_drop]
      congr 1
      omega

/-- A stream may be cut as it arrives. -/
theorem cut_append (place : Nat) (xs ys : List β) :
    F.cut place (xs ++ ys) =
      ((F.cut place xs).1 ++
          (F.cut (place + (xs.length - (F.cut place xs).2.length)) ((F.cut place xs).2 ++ ys)).1,
        (F.cut (place + (xs.length - (F.cut place xs).2.length)) ((F.cut place xs).2 ++ ys)).2) := by
  induction place, xs using cut_induction (F := F) with
  | stop place xs h => simp [cut_of_none h]
  | step place xs m n h ih =>
      have hle := F.next_le h
      have htail := (tail_eq_drop (F := F) (place + n) (xs.drop n)).1
      rw [List.length_drop] at htail ih
      have hplace : place + n + (xs.length - n - (F.cut (place + n) (xs.drop n)).2.length) =
          place + (xs.length - (F.cut (place + n) (xs.drop n)).2.length) := by omega
      rw [hplace] at ih
      rw [cut_of_some (F.next_append ys h), cut_of_some h, List.drop_append_of_le_length hle, ih]
      rfl

section Encode

variable {encode : μ → List β}

/-- Frames written one after the other, each with its place. -/
def placed (encode : μ → List β) : Nat → List μ → List (Nat × μ)
  | _, [] => []
  | place, m :: ms => (place, m) :: placed encode (place + (encode m).length) ms

/-- Written frames are cut off again, in order, each at its place. -/
theorem cut_flatMap (hnext : ∀ m ys, F.next (encode m ++ ys) = some (m, (encode m).length))
    {tail : List β} (htail : F.next tail = none) (place : Nat) (ms : List μ) :
    F.cut place (ms.flatMap encode ++ tail) = (placed encode place ms, tail) := by
  induction ms generalizing place with
  | nil => exact cut_of_none htail
  | cons m ms ih =>
      rw [List.flatMap_cons, List.append_assoc, cut_of_some (hnext m _), List.drop_left, ih]
      rfl

/-- Every stream is written frames and a tail. -/
theorem exists_flatMap (encode : μ → List β)
    (hencode : ∀ {xs m n}, F.next xs = some (m, n) → xs = encode m ++ xs.drop n)
    (place : Nat) (xs : List β) :
    ∃ ms : List μ, xs = ms.flatMap encode ++ (F.cut place xs).2 := by
  induction place, xs using cut_induction (F := F) with
  | stop place xs h => exact ⟨[], by rw [cut_of_none h]; rfl⟩
  | step place xs m n h ih =>
      obtain ⟨ms, hms⟩ := ih
      refine ⟨m :: ms, ?_⟩
      rw [cut_of_some h, List.flatMap_cons, List.append_assoc]
      dsimp only
      rw [← hms]
      exact hencode h

end Encode

end Framing

end Iceee.Lib
