import Iceee.Lib.Machine

/-!
# Permission to build

An account may build on the pages of its areas. `CheckBuildPermission` is asked for a page,
`CheckBuildPermissionAdv` for a position. The second converts the position to integers first, which
rounds up below zero: within one unit below the edge of a page it sees the next page.

## Main results

* `checks_agree_iff`: where the two checks agree.

## Implementation notes

A position is rational. An `int` that overflows wraps, and a number that does not fit is converted
to the lowest `int`.
-/

namespace Iceee.BuildPermission

open Lib

structure BuildPermissionArea where
  zoneID : Int
  x1 : Int
  y1 : Int
  x2 : Int
  y2 : Int
  deriving DecidableEq, Repr

/-- `(int)` of a position. -/
def toInt (pos : ℚ) : Int := if InInt32 (trunc pos) then trunc pos else -2 ^ 31

structure AccountData where
  /-- `HasPermission(Perm_Account, Permission_Builder)`. -/
  builder : Bool
  buildPermissionList : List BuildPermissionArea

namespace AccountData

variable (a : AccountData)

/-- `CheckBuildPermission`. -/
def checkBuildPermission (zoneID pagex pagey : Int) : Bool :=
  a.builder || a.buildPermissionList.any fun bpa =>
    bpa.zoneID == zoneID &&
      (decide (bpa.x1 ≤ pagex) && decide (pagex ≤ bpa.x2)) &&
      (decide (bpa.y1 ≤ pagey) && decide (pagey ≤ bpa.y2))

/-- `CheckBuildPermissionAdv`. -/
def checkBuildPermissionAdv (zoneID pageSize : Int) (posx posz : ℚ) : Bool :=
  let px := toInt posx
  let pz := toInt posz
  a.builder || a.buildPermissionList.any fun bpa =>
    let x1 := wrap32 (bpa.x1 * pageSize)
    let y1 := wrap32 (bpa.y1 * pageSize)
    let x2 := wrap32 ((bpa.x2 + 1) * pageSize - 1)
    let y2 := wrap32 ((bpa.y2 + 1) * pageSize - 1)
    bpa.zoneID == zoneID && (decide (x1 ≤ px) && decide (px ≤ x2)) &&
      (decide (y1 ≤ pz) && decide (pz ≤ y2))

/-- The positions from one page to another fit an `int`, and the lowest one stays free. -/
def PagesFit (pageSize low high : Int) : Prop :=
  (-2 ^ 31 < low * pageSize ∧ low * pageSize < 2 ^ 31) ∧ InInt32 ((high + 1) * pageSize - 1)

instance (pageSize low high : Int) : Decidable (PagesFit pageSize low high) :=
  inferInstanceAs (Decidable (_ ∧ _))

/-- The position lies less than one unit below an edge of a page, at or below zero. -/
def BelowEdge (pageSize : Int) (pos : ℚ) : Prop :=
  pos < 0 ∧ ⌊pos⌋ ≠ pos ∧ pageSize ∣ ⌊pos⌋ + 1

instance (pageSize : Int) (pos : ℚ) : Decidable (BelowEdge pageSize pos) :=
  inferInstanceAs (Decidable (_ ∧ _))

/-- The page that a position is taken for. -/
def seenPage (pageSize : Int) (pos : ℚ) : Int :=
  ⌊pos / pageSize⌋ + if BelowEdge pageSize pos then 1 else 0

variable {a} {pageSize : Int}

theorem succ_ediv (hsize : 0 < pageSize) (n : Int) :
    (n + 1) / pageSize = n / pageSize + if pageSize ∣ n + 1 then 1 else 0 := by
  by_cases hdvd : pageSize ∣ n + 1
  · obtain ⟨k, hk⟩ := hdvd
    have hprev : n / pageSize = k - 1 := by
      have hn : n = (pageSize - 1) + pageSize * (k - 1) := by linarith
      rw [hn, Int.add_mul_ediv_left _ _ (ne_of_gt hsize),
        Int.ediv_eq_zero_of_lt (by omega) (by omega), zero_add]
    rw [if_pos ⟨k, hk⟩, hk, Int.mul_ediv_cancel_left _ (ne_of_gt hsize), hprev]
    omega
  · rw [if_neg hdvd, add_zero]
    have hlow := Int.emod_nonneg n (ne_of_gt hsize)
    have hhigh := Int.emod_lt_of_pos n hsize
    have hsplit := Int.emod_add_mul_ediv n pageSize
    have hne : n % pageSize + 1 ≠ pageSize := fun h => hdvd ⟨n / pageSize + 1, by linarith⟩
    have hn : n + 1 = (n % pageSize + 1) + pageSize * (n / pageSize) := by linarith
    rw [hn, Int.add_mul_ediv_left _ _ (ne_of_gt hsize),
      Int.ediv_eq_zero_of_lt (by omega) (by omega), zero_add]

/-- The position that is converted to an integer lies on the page that is seen. -/
theorem trunc_ediv (hsize : 0 < pageSize) (pos : ℚ) :
    trunc pos / pageSize = seenPage pageSize pos := by
  have hpage : ⌊pos / pageSize⌋ = ⌊pos⌋ / pageSize :=
    Int.floor_div_cast_of_nonneg (le_of_lt hsize) pos
  rw [seenPage, hpage, trunc_eq_floor]
  by_cases hround : pos < 0 ∧ ⌊pos⌋ ≠ pos
  · rw [if_pos hround, succ_ediv hsize]
    congr 1
    refine if_congr ?_ rfl rfl
    exact ⟨fun h => ⟨hround.1, hround.2, h⟩, fun h => h.2.2⟩
  · rw [if_neg hround, if_neg fun h : BelowEdge pageSize pos => hround ⟨h.1, h.2.1⟩, add_zero,
      add_zero]

/-- The bounds of an area in positions are its bounds in pages. -/
theorem between_iff (hsize : 0 < pageSize) (low high n : Int) :
    low * pageSize ≤ n ∧ n ≤ (high + 1) * pageSize - 1 ↔
      low ≤ n / pageSize ∧ n / pageSize ≤ high := by
  rw [Int.le_ediv_iff_mul_le hsize, Int.le_sub_one_iff, ← Int.ediv_lt_iff_lt_mul hsize,
    Int.lt_add_one_iff]

/-- A position passes the bounds of an area where the page that is seen does. -/
theorem passes_iff (hsize : 0 < pageSize) {low high : Int} (hfit : PagesFit pageSize low high)
    (pos : ℚ) :
    wrap32 (low * pageSize) ≤ toInt pos ∧ toInt pos ≤ wrap32 ((high + 1) * pageSize - 1) ↔
      low ≤ seenPage pageSize pos ∧ seenPage pageSize pos ≤ high := by
  obtain ⟨⟨hlow, hlow'⟩, hhigh⟩ := hfit
  rw [wrap32_eq ⟨hlow.le, hlow'⟩, wrap32_eq hhigh, ← trunc_ediv hsize, ← between_iff hsize, toInt]
  split
  · rfl
  · next hpos =>
      -- beyond the range nothing passes
      unfold InInt32 at hpos hhigh
      omega

/-- The check of a position is the check of the page it is taken for. -/
theorem checkBuildPermissionAdv_eq (hsize : 0 < pageSize) {zoneID : Int}
    (hfit : ∀ bpa ∈ a.buildPermissionList, bpa.zoneID = zoneID →
      PagesFit pageSize bpa.x1 bpa.x2 ∧ PagesFit pageSize bpa.y1 bpa.y2) (posx posz : ℚ) :
    a.checkBuildPermissionAdv zoneID pageSize posx posz =
      a.checkBuildPermission zoneID (seenPage pageSize posx) (seenPage pageSize posz) := by
  rw [checkBuildPermissionAdv, checkBuildPermission]
  congr 1
  rw [Bool.eq_iff_iff, List.any_eq_true, List.any_eq_true]
  refine exists_congr fun bpa => and_congr_right fun hbpa => ?_
  by_cases hzone : bpa.zoneID = zoneID
  · obtain ⟨hx, hy⟩ := hfit bpa hbpa hzone
    simp only [Bool.and_eq_true, decide_eq_true_eq, passes_iff hsize hx, passes_iff hsize hy]
  · simp [hzone]

/-- Without the builder permission, and where the areas of the zone fit, the checks agree exactly
where the page and the page that is seen are granted alike. -/
theorem checks_agree_iff (hbuilder : a.builder = false) (hsize : 0 < pageSize) (zoneID : Int)
    (hfit : ∀ bpa ∈ a.buildPermissionList, bpa.zoneID = zoneID →
      PagesFit pageSize bpa.x1 bpa.x2 ∧ PagesFit pageSize bpa.y1 bpa.y2) (posx posz : ℚ) :
    (a.checkBuildPermissionAdv zoneID pageSize posx posz = true ↔
        a.checkBuildPermission zoneID ⌊posx / pageSize⌋ ⌊posz / pageSize⌋ = true) ↔
      (BelowEdge pageSize posx ∨ BelowEdge pageSize posz →
        ((∃ bpa ∈ a.buildPermissionList, bpa.zoneID = zoneID ∧
            (bpa.x1 ≤ seenPage pageSize posx ∧ seenPage pageSize posx ≤ bpa.x2) ∧
            (bpa.y1 ≤ seenPage pageSize posz ∧ seenPage pageSize posz ≤ bpa.y2)) ↔
          ∃ bpa ∈ a.buildPermissionList, bpa.zoneID = zoneID ∧
            (bpa.x1 ≤ ⌊posx / pageSize⌋ ∧ ⌊posx / pageSize⌋ ≤ bpa.x2) ∧
            (bpa.y1 ≤ ⌊posz / pageSize⌋ ∧ ⌊posz / pageSize⌋ ≤ bpa.y2))) := by
  have hgranted (p q : Int) : a.checkBuildPermission zoneID p q = true ↔
      ∃ bpa ∈ a.buildPermissionList, bpa.zoneID = zoneID ∧ (bpa.x1 ≤ p ∧ p ≤ bpa.x2) ∧
        (bpa.y1 ≤ q ∧ q ≤ bpa.y2) := by
    simp [checkBuildPermission, hbuilder, and_assoc]
  rw [checkBuildPermissionAdv_eq hsize hfit, hgranted, hgranted]
  refine ⟨fun h _ => h, fun h => ?_⟩
  by_cases hedge : BelowEdge pageSize posx ∨ BelowEdge pageSize posz
  · exact h hedge
  · obtain ⟨hx, hz⟩ := not_or.mp hedge
    have hpage {pos : ℚ} (hpos : ¬BelowEdge pageSize pos) :
        seenPage pageSize pos = ⌊pos / pageSize⌋ := by rw [seenPage, if_neg hpos, add_zero]
    rw [hpage hx, hpage hz]

/-- Half a unit inside of an area that begins at zero. -/
theorem checks_agree_iff_half :
    (AccountData.checkBuildPermissionAdv ⟨false, [⟨1, 0, 0, 0, 0⟩]⟩ 1 10 (1 / 2) (1 / 2) = true ↔
        AccountData.checkBuildPermission ⟨false, [⟨1, 0, 0, 0, 0⟩]⟩ 1 ⌊(1 / 2 : ℚ) / (10 : Int)⌋
          ⌊(1 / 2 : ℚ) / (10 : Int)⌋ = true) :=
  (checks_agree_iff rfl (by decide) 1 (by decide) (1 / 2) (1 / 2)).mpr fun h => by
    rcases h with h | h <;> exact absurd h.1 (by norm_num)

/-- Half a unit outside of an area that begins at zero a position passes. -/
theorem outside_passes :
    ¬(AccountData.checkBuildPermissionAdv ⟨false, [⟨1, 0, 0, 0, 0⟩]⟩ 1 10 (-1 / 2) 0 = true ↔
        AccountData.checkBuildPermission ⟨false, [⟨1, 0, 0, 0, 0⟩]⟩ 1 ⌊(-1 / 2 : ℚ) / (10 : Int)⌋
          ⌊(0 : ℚ) / (10 : Int)⌋ = true) := by
  decide +kernel

end AccountData

end Iceee.BuildPermission
