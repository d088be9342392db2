import Mathlib

/-!
# Texts that open and close levels

A weight says by how much each letter moves the level. Texts that never fall below the level they
begin at, and end there, can be joined and wrapped, and a scanner that cuts at the separators of
level zero gives the joined pieces back.
-/

namespace Iceee.Lib.Nesting

variable {α : Type*} {w w' : α → Int} {sep : α} {n : Int} {a b t : List α}

/-- By how much a text moves the level. -/
def depth (w : α → Int) (t : List α) : Int := (t.map w).sum

@[simp] theorem depth_nil : depth w [] = 0 := rfl

@[simp] theorem depth_cons (c : α) (t : List α) : depth w (c :: t) = w c + depth w t := by
  simp [depth]

@[simp] theorem depth_append (a b : List α) : depth w (a ++ b) = depth w a + depth w b := by
  simp [depth]

/-- From level `n` the text never falls below zero. -/
def Above (w : α → Int) : Int → List α → Prop
  | n, [] => 0 ≤ n
  | n, c :: rest => 0 ≤ n ∧ Above w (n + w c) rest

/-- No separator of the text stands at level zero, when the text begins at level `n`. -/
def Sealed (w : α → Int) (sep : α) : Int → List α → Prop
  | _, [] => True
  | n, c :: rest => (c = sep → n ≠ 0) ∧ Sealed w sep (n + w c) rest

/-- Whatever opens is closed, and nothing else is. -/
structure Balanced (w : α → Int) (t : List α) : Prop where
  above : Above w 0 t
  depth_eq : depth w t = 0

theorem Above.nonneg (h : Above w n t) : 0 ≤ n := by
  cases t with
  | nil => exact h
  | cons c rest => exact h.1

theorem above_append : Above w n (a ++ b) ↔ Above w n a ∧ Above w (n + depth w a) b := by
  induction a generalizing n with
  | nil =>
      simp only [List.nil_append, Above, depth_nil, add_zero]
      exact ⟨fun h => ⟨h.nonneg, h⟩, And.right⟩
  | cons c rest ih => simp only [List.cons_append, Above, ih, depth_cons, add_assoc, and_assoc]

theorem Above.mono (h : Above w n t) {m : Int} (hle : n ≤ m) : Above w m t := by
  induction t generalizing n m with
  | nil => exact le_trans h hle
  | cons c rest ih => exact ⟨le_trans h.1 hle, ih h.2 (by omega)⟩

theorem sealed_append :
    Sealed w sep n (a ++ b) ↔ Sealed w sep n a ∧ Sealed w sep (n + depth w a) b := by
  induction a generalizing n with
  | nil => simp only [List.nil_append, Sealed, depth_nil, add_zero, true_and]
  | cons c rest ih => simp only [List.cons_append, Sealed, ih, depth_cons, add_assoc, and_assoc]

theorem sealed_of_notMem (h : sep ∉ t) : Sealed w sep n t := by
  induction t generalizing n with
  | nil => trivial
  | cons c rest ih =>
      obtain ⟨hc, hrest⟩ := List.ne_and_not_mem_of_not_mem_cons h
      exact ⟨fun heq => absurd heq.symm hc, ih hrest⟩

/-- Above level zero no separator counts. -/
theorem Above.sealed (h : Above w n t) : Sealed w sep (n + 1) t := by
  induction t generalizing n with
  | nil => trivial
  | cons c rest ih =>
      refine ⟨fun _ => by have := h.1; omega, ?_⟩
      have hrest := ih h.2
      rwa [add_right_comm] at hrest

theorem depth_congr (h : ∀ c ∈ t, w c = w' c) : depth w t = depth w' t := by
  simp only [depth, List.map_congr_left h]

theorem Above.congr (h : ∀ c ∈ t, w c = w' c) (hw : Above w n t) : Above w' n t := by
  induction t generalizing n with
  | nil => exact hw
  | cons c rest ih =>
      obtain ⟨hc, hrest⟩ := List.forall_mem_cons.mp h
      exact ⟨hw.1, by simpa only [← hc] using ih hrest hw.2⟩

namespace Balanced

theorem nil : Balanced w [] := ⟨le_refl 0, rfl⟩

theorem append (ha : Balanced w a) (hb : Balanced w b) : Balanced w (a ++ b) where
  above := by
    refine above_append.mpr ⟨ha.above, ?_⟩
    simpa only [ha.depth_eq, add_zero] using hb.above
  depth_eq := by rw [depth_append, ha.depth_eq, hb.depth_eq, add_zero]

theorem congr (h : ∀ c ∈ t, w c = w' c) (ht : Balanced w t) : Balanced w' t :=
  ⟨ht.above.congr h, by rw [← depth_congr h, ht.depth_eq]⟩

/-- A text of letters that neither open nor close. -/
theorem of_flat (h : ∀ c ∈ t, w c = 0) : Balanced w t := by
  induction t with
  | nil => exact nil
  | cons c rest ih =>
      obtain ⟨hc, hrest⟩ := List.forall_mem_cons.mp h
      have hb := ih hrest
      refine ⟨⟨le_refl 0, ?_⟩, ?_⟩
      · simpa only [hc, add_zero] using hb.above
      · simp only [depth_cons, hc, hb.depth_eq, add_zero]

theorem wrap {o c : α} (ho : w o = 1) (hc : w c = -1) (ht : Balanced w t) :
    Balanced w (o :: (t ++ [c])) where
  above := by
    refine ⟨le_refl 0, above_append.mpr ⟨ht.above.mono (by omega), ?_⟩⟩
    simp only [Above, ho, hc, ht.depth_eq]
    omega
  depth_eq := by
    simp only [depth_cons, depth_append, depth_nil, ho, hc, ht.depth_eq]
    omega

theorem intercalate (hsep : w sep = 0) {pieces : List (List α)}
    (h : ∀ t ∈ pieces, Balanced w t) : Balanced w ([sep].intercalate pieces) := by
  have hone : Balanced w [sep] := of_flat (by simpa using hsep)
  induction pieces with
  | nil => exact nil
  | cons t rest ih =>
      obtain ⟨ht, hrest⟩ := List.forall_mem_cons.mp h
      cases rest with
      | nil => simpa using ht
      | cons u rest => simpa using ht.append (hone.append (ih hrest))

/-- Within something that opens and closes no separator stands at level zero. -/
theorem sealed_wrap {o c : α} (ho : w o = 1) (hosep : o ≠ sep) (hcsep : c ≠ sep)
    (ht : Balanced w t) : Sealed w sep 0 (o :: (t ++ [c])) := by
  refine ⟨fun h => absurd h hosep, sealed_append.mpr ⟨?_, ?_⟩⟩
  · simpa only [ho] using ht.above.sealed
  · exact ⟨fun h => absurd h hcsep, trivial⟩

end Balanced

/-! ### Cutting -/

section Cut

variable [DecidableEq α]

/-- Cuts at the separators of level zero. An empty last piece is dropped. -/
def cut (w : α → Int) (sep : α) : Int → List α → List α → List (List α)
  | _, piece, [] => if piece = [] then [] else [piece]
  | level, piece, c :: rest =>
      if c = sep ∧ level = 0 then piece :: cut w sep level [] rest
      else cut w sep (level + w c) (piece ++ [c]) rest

theorem cut_append {piece rest : List α} (h : Sealed w sep n t) :
    cut w sep n piece (t ++ rest) = cut w sep (n + depth w t) (piece ++ t) rest := by
  induction t generalizing n piece with
  | nil => simp
  | cons c t ih =>
      have hc : ¬(c = sep ∧ n = 0) := fun hand => h.1 hand.1 hand.2
      rw [List.cons_append, cut, if_neg hc, ih h.2]
      simp [add_assoc]

/-- What is joined with separators is cut into the same pieces. -/
theorem cut_intercalate {pieces : List (List α)} (hne : ∀ t ∈ pieces, t ≠ [])
    (hdepth : ∀ t ∈ pieces, depth w t = 0) (hsealed : ∀ t ∈ pieces, Sealed w sep 0 t) :
    cut w sep 0 [] ([sep].intercalate pieces) = pieces := by
  induction pieces with
  | nil => simp [cut]
  | cons t rest ih =>
      obtain ⟨hnet, hnerest⟩ := List.forall_mem_cons.mp hne
      obtain ⟨hdt, hdrest⟩ := List.forall_mem_cons.mp hdepth
      obtain ⟨hst, hsrest⟩ := List.forall_mem_cons.mp hsealed
      cases rest with
      | nil =>
          have hcut := @cut_append α w sep 0 t _ [] [] hst
          simpa [cut, hnet] using hcut
      | cons u rest =>
          have hcut := @cut_append α w sep 0 t _ [] (sep :: [sep].intercalate (u :: rest)) hst
          have hjoin : [sep].intercalate (t :: u :: rest) =
              t ++ sep :: [sep].intercalate (u :: rest) := by simp
          calc cut w sep 0 [] ([sep].intercalate (t :: u :: rest))
              = cut w sep (0 + depth w t) ([] ++ t) (sep :: [sep].intercalate (u :: rest)) := by
                rw [hjoin, hcut]
            _ = t :: cut w sep 0 [] ([sep].intercalate (u :: rest)) := by simp [cut, hdt]
            _ = t :: u :: rest := by rw [ih hnerest hdrest hsrest]

end Cut

end Iceee.Lib.Nesting
