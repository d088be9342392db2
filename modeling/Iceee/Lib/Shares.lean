import Mathlib

/-!
# Choosing by shares

A list of shares cuts the numbers from 1 to their sum into intervals, one for each entry and as long
as its share. A choice is fair when it maps every number to the entry of its interval, or cuts the
numbers in another way into parts of the same sizes.
-/

namespace Iceee.Lib

/-- Each of the numbers up to a bound chooses an entry, and each entry is chosen by as many of them
as it has shares. -/
structure Fair (shares : List ℤ) (maxRoll : ℤ) (select : ℤ → Option ℕ) : Prop where
  chosen : ∀ r ∈ Finset.Icc 1 maxRoll, ∃ i, i < shares.length ∧ select r = some i
  count : ∀ i share, shares[i]? = some share →
    (((Finset.Icc 1 maxRoll).filter fun r => select r = some i).card : ℤ) = share

/-- The entry in whose interval a number lies. -/
def shareAt : List ℤ → ℤ → Option ℕ
  | [], _ => none
  | share :: shares, r =>
      if r ≤ share then some 0 else (shareAt shares (r - share)).map Nat.succ

variable {shares : List ℤ}

theorem sum_nonneg_of_pos (hpos : ∀ share ∈ shares, 1 ≤ share) : 0 ≤ shares.sum :=
  List.sum_nonneg fun share hshare => zero_le_one.trans (hpos share hshare)

/-- The interval of an entry lies behind those of the entries in front of it. -/
theorem shareAt_eq_some_iff (hpos : ∀ share ∈ shares, 1 ≤ share) {r : ℤ} (hr : 1 ≤ r) {i : ℕ} :
    shareAt shares r = some i ↔
      ∃ share, shares[i]? = some share ∧
        (shares.take i).sum < r ∧ r ≤ (shares.take i).sum + share := by
  induction shares generalizing r i with
  | nil => simp [shareAt]
  | cons share shares ih =>
      rw [List.forall_mem_cons] at hpos
      rw [shareAt]
      cases i with
      | zero =>
          rw [List.getElem?_cons_zero, List.take_zero, List.sum_nil]
          split
          · next hle => simpa using ⟨by omega, hle⟩
          · next hgt => simpa using fun _ => not_le.mp hgt
      | succ i =>
          rw [List.getElem?_cons_succ, List.take_succ_cons, List.sum_cons]
          split
          · next hle =>
              refine iff_of_false (fun h => nomatch h) ?_
              rintro ⟨_, _, hlow, -⟩
              have hnonneg : 0 ≤ (shares.take i).sum :=
                sum_nonneg_of_pos fun s hs => hpos.2 s (List.mem_of_mem_take hs)
              omega
          · next hgt =>
              rw [Option.map_eq_some_iff]
              simp only [Nat.succ_inj, exists_eq_right]
              rw [ih hpos.2 (by omega)]
              refine exists_congr fun s => and_congr_right fun _ => ?_
              constructor <;> rintro ⟨hlow, hhigh⟩ <;> exact ⟨by omega, by omega⟩

/-- A number within the sum of the shares lies in an interval. -/
theorem exists_shareAt (hpos : ∀ share ∈ shares, 1 ≤ share) {r : ℤ} (hle : r ≤ shares.sum)
    (hr : 1 ≤ r) : ∃ i, i < shares.length ∧ shareAt shares r = some i := by
  induction shares generalizing r with
  | nil => rw [List.sum_nil] at hle; omega
  | cons share shares ih =>
      rw [List.forall_mem_cons] at hpos
      rw [List.sum_cons] at hle
      rw [shareAt]
      split
      · exact ⟨0, Nat.succ_pos _, rfl⟩
      · next hgt =>
          obtain ⟨i, hi, hat⟩ := ih hpos.2 (r := r - share) (by omega) (by omega)
          exact ⟨i + 1, Nat.succ_lt_succ hi, by rw [hat]; rfl⟩

theorem sum_take_add_le (hpos : ∀ share ∈ shares, 1 ≤ share) {i : ℕ} {share : ℤ}
    (hshare : shares[i]? = some share) : (shares.take i).sum + share ≤ shares.sum := by
  obtain ⟨hlt, hget⟩ := List.getElem?_eq_some_iff.mp hshare
  have hrest : 0 ≤ (shares.drop (i + 1)).sum :=
    sum_nonneg_of_pos fun s hs => hpos s (List.mem_of_mem_drop hs)
  have hsplit := List.sum_take_add_sum_drop shares i
  rw [List.drop_eq_getElem_cons hlt, List.sum_cons, hget] at hsplit
  omega

/-- To choose by the intervals is fair. -/
theorem fair_shareAt (hpos : ∀ share ∈ shares, 1 ≤ share) :
    Fair shares shares.sum (shareAt shares) where
  chosen r hr := by
    rw [Finset.mem_Icc] at hr
    exact exists_shareAt hpos hr.2 hr.1
  count i share hshare := by
    have hlow : 0 ≤ (shares.take i).sum :=
      sum_nonneg_of_pos fun s hs => hpos s (List.mem_of_mem_take hs)
    have hhigh := sum_take_add_le hpos hshare
    have hinterval : ((Finset.Icc 1 shares.sum).filter fun r => shareAt shares r = some i) =
        Finset.Ioc (shares.take i).sum ((shares.take i).sum + share) := by
      ext r
      rw [Finset.mem_filter, Finset.mem_Icc, Finset.mem_Ioc]
      constructor
      · rintro ⟨⟨hr, -⟩, hat⟩
        obtain ⟨share', hshare', hbounds⟩ := (shareAt_eq_some_iff hpos hr).mp hat
        obtain rfl := Option.some.inj (hshare.symm.trans hshare')
        exact hbounds
      · intro hbounds
        have hr : 1 ≤ r := by omega
        exact ⟨⟨hr, by omega⟩, (shareAt_eq_some_iff hpos hr).mpr ⟨share, hshare, hbounds⟩⟩
    have hshare1 : 1 ≤ share := hpos share (List.mem_of_getElem? hshare)
    rw [hinterval, Int.card_Ioc, add_sub_cancel_left, Int.toNat_of_nonneg (by omega)]

section Choice

variable {maxRoll : ℤ} {select select' : ℤ → Option ℕ}

/-- Only the numbers up to the bound matter. -/
theorem Fair.congr (h : Fair shares maxRoll select)
    (heq : ∀ r, 1 ≤ r → r ≤ maxRoll → select' r = select r) : Fair shares maxRoll select' where
  chosen r hr := by
    obtain ⟨hlow, hhigh⟩ := Finset.mem_Icc.mp hr
    rw [heq r hlow hhigh]
    exact h.chosen r hr
  count i share hshare := by
    rw [← h.count i share hshare]
    congr 2
    refine Finset.filter_congr fun r hr => ?_
    obtain ⟨hlow, hhigh⟩ := Finset.mem_Icc.mp hr
    rw [heq r hlow hhigh]

/-- No number is up to a bound below 1. -/
theorem fair_max_iff : Fair shares (max maxRoll 0) select ↔ Fair shares maxRoll select := by
  have hsame : Finset.Icc 1 (max maxRoll 0) = Finset.Icc 1 maxRoll := by
    ext r
    rw [Finset.mem_Icc, Finset.mem_Icc]
    omega
  constructor <;> rintro ⟨hchosen, hcount⟩
  · exact ⟨hsame ▸ hchosen, hsame ▸ hcount⟩
  · exact ⟨hsame.symm ▸ hchosen, hsame.symm ▸ hcount⟩

/-- A choice is fair only up to the sum of the shares. -/
theorem Fair.sum_eq (h : Fair shares maxRoll select) : shares.sum = max maxRoll 0 := by
  have hmaps : Set.MapsTo select (Finset.Icc 1 maxRoll)
      ((Finset.range shares.length).image some : Finset (Option ℕ)) := by
    intro r hr
    obtain ⟨i, hi, hselect⟩ := h.chosen r hr
    rw [hselect, Finset.mem_coe]
    exact Finset.mem_image_of_mem some (Finset.mem_range.mpr hi)
  have hcard := Finset.card_eq_sum_card_fiberwise hmaps
  rw [Finset.sum_image fun i _ j _ hij => Option.some.inj hij, Finset.sum_range] at hcard
  calc shares.sum = ∑ i : Fin shares.length, shares[i] := (Fin.sum_univ_getElem shares).symm
    _ = ∑ i : Fin shares.length,
          (((Finset.Icc 1 maxRoll).filter fun r => select r = some i.1).card : ℤ) :=
        Finset.sum_congr rfl fun i _ => (h.count i shares[i] (List.getElem?_eq_getElem i.2)).symm
    _ = ((Finset.Icc 1 maxRoll).card : ℤ) := by rw [hcard, Nat.cast_sum]
    _ = max maxRoll 0 := by rw [Int.card_Icc, add_sub_cancel_right, Int.ofNat_toNat]

end Choice

end Iceee.Lib
