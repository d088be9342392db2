import Iceee.Lib.Double

/-!
# Floating-point numbers with 24 bits

Rounding to a `float`, for numbers that are far from the largest. It keeps the order of the numbers
above zero. Between two whole numbers it goes to the upper one only within half a last place of it.
-/

namespace Iceee.Lib

/-! ### Rounding to integers -/

variable {n : ℤ} {p q : ℚ}

theorem le_roundEven (h : n ≤ q) : n ≤ roundEven q := by
  have hfloor : n ≤ ⌊q⌋ := Int.le_floor.mpr h
  rw [roundEven]
  split_ifs <;> omega

/-- Just below an even number, half a unit decides. -/
theorem roundEven_below_even (heven : n % 2 = 0) (hlt : q < n) :
    roundEven q ≤ n ∧ (roundEven q = n ↔ n - q ≤ 1 / 2) := by
  have hfloor : ⌊q⌋ < n := Int.floor_lt.mpr hlt
  have hbelow := Int.floor_le q
  have habove := Int.lt_floor_add_one q
  rcases eq_or_lt_of_le (Int.add_one_le_of_lt hfloor) with heq | hfar
  · have hcast : (⌊q⌋ : ℚ) = n - 1 := by
      rw [← heq]
      push_cast
      ring
    rw [roundEven]
    split_ifs with hdown hup hodd
    · exact ⟨hfloor.le, by omega, fun h => by linarith⟩
    · exact ⟨heq.le, fun _ => by linarith, fun _ => heq⟩
    · omega
    · exact ⟨heq.le, fun _ => by linarith, fun _ => heq⟩
  · have hle : roundEven q ≤ ⌊q⌋ + 1 := by
      rw [roundEven]
      split_ifs <;> omega
    have hcast : (⌊q⌋ : ℚ) + 1 + 1 ≤ n := by exact_mod_cast hfar
    exact ⟨by omega, by omega, fun h => by linarith⟩

theorem roundEven_mono (h : p ≤ q) : roundEven p ≤ roundEven q := by
  rcases eq_or_lt_of_le (Int.floor_le_floor h) with hsame | hbelow
  · rw [roundEven, roundEven, hsame]
    split_ifs <;> first | omega | (exfalso; linarith)
  · have hp : roundEven p ≤ ⌊p⌋ + 1 := by
      rw [roundEven]
      split_ifs <;> omega
    have hq : ⌊q⌋ ≤ roundEven q := by
      rw [roundEven]
      split_ifs <;> omega
    omega

theorem roundEven_neg (q : ℚ) : roundEven (-q) = -roundEven q := by
  rcases eq_or_ne (⌊q⌋ : ℚ) q with hwhole | hne
  · rw [← hwhole, ← Int.cast_neg, roundEven_intCast, roundEven_intCast]
  · have hlt : (⌊q⌋ : ℚ) < q := lt_of_le_of_ne (Int.floor_le q) hne
    have habove := Int.lt_floor_add_one q
    have hfloor : ⌊-q⌋ = -⌊q⌋ - 1 := by
      rw [Int.floor_eq_iff]
      push_cast
      constructor <;> linarith
    have hcast : (⌊-q⌋ : ℚ) = -⌊q⌋ - 1 := by
      rw [hfloor]
      push_cast
      ring
    rw [roundEven, roundEven, hcast, hfloor]
    split_ifs <;> first | omega | (exfalso; linarith)

namespace Single

/-- The exponent of the last place of a number. -/
def lastPlace (q : ℚ) : ℤ := max (Int.log 2 |q| - 23) (-149)

/-- The nearest number with 24 bits. -/
def round (q : ℚ) : ℚ := roundEven (q / 2 ^ lastPlace q) * 2 ^ lastPlace q

/-- The next whole number is at most half a last place away. -/
def RoundsUp (q : ℚ) : Prop := ⌊q⌋ + 1 - q ≤ 2 ^ lastPlace q / 2

theorem round_neg (q : ℚ) : round (-q) = -round q := by
  have hplace : lastPlace (-q) = lastPlace q := by rw [lastPlace, lastPlace, abs_neg]
  rw [round, hplace, neg_div, roundEven_neg, Int.cast_neg, neg_mul, round]

theorem round_zero : round 0 = 0 := by
  have hneg := round_neg 0
  rw [neg_zero] at hneg
  linarith

/-- Below 2^22 there are places after the point. -/
theorem lastPlace_le (h : |q| < 2 ^ 22) : lastPlace q ≤ -2 := by
  rw [lastPlace]
  refine max_le ?_ (by norm_num)
  rcases eq_or_ne q 0 with rfl | hne
  · simp
  · have hlt : |q| < ((2 : ℕ) : ℚ) ^ (22 : ℤ) := by exact_mod_cast h
    have hlog := (Int.lt_zpow_iff_log_lt one_lt_two (abs_pos.mpr hne)).mp hlt
    omega

/-- The places of a small number: their count, and what rounding to them is. -/
theorem exists_places (h : |q| < 2 ^ 22) :
    ∃ m : ℕ, 2 ≤ m ∧ (2 : ℚ) ^ lastPlace q = (2 ^ m)⁻¹ ∧
      round q = roundEven (q * 2 ^ m) * (2 ^ m)⁻¹ := by
  have hle := lastPlace_le h
  obtain ⟨m, hm⟩ := Int.eq_ofNat_of_zero_le (by omega : 0 ≤ -lastPlace q)
  have hpow : (2 : ℚ) ^ lastPlace q = (2 ^ m)⁻¹ := by
    rw [show lastPlace q = -(m : ℤ) by omega, zpow_neg, zpow_natCast]
  exact ⟨m, by omega, hpow, by rw [round, hpow, div_inv_eq_mul]⟩

/-- Rounding does not leave the interval between two whole numbers, and reaches the upper end only
from nearby. -/
theorem round_between (h : |q| < 2 ^ 22) :
    (⌊q⌋ : ℚ) ≤ round q ∧ round q ≤ ⌊q⌋ + 1 ∧ (round q = ⌊q⌋ + 1 ↔ RoundsUp q) := by
  obtain ⟨m, hm, hpow, hround⟩ := exists_places h
  have hpos : (0 : ℚ) < 2 ^ m := by positivity
  have hlow : ((⌊q⌋ * 2 ^ m : ℤ) : ℚ) ≤ q * 2 ^ m := by
    push_cast
    exact mul_le_mul_of_nonneg_right (Int.floor_le q) hpos.le
  have hhigh : q * 2 ^ m < (((⌊q⌋ + 1) * 2 ^ m : ℤ) : ℚ) := by
    push_cast
    exact mul_lt_mul_of_pos_right (Int.lt_floor_add_one q) hpos
  have heven : (⌊q⌋ + 1) * 2 ^ m % 2 = 0 := by
    obtain ⟨k, rfl⟩ : ∃ k, m = k + 1 := ⟨m - 1, by omega⟩
    rw [pow_succ, ← mul_assoc, Int.mul_emod_left]
  have hge := le_roundEven hlow
  obtain ⟨hle, hiff⟩ := roundEven_below_even heven hhigh
  have hgeq : (⌊q⌋ : ℚ) * 2 ^ m ≤ roundEven (q * 2 ^ m) := by exact_mod_cast hge
  have hleq : (roundEven (q * 2 ^ m) : ℚ) ≤ (⌊q⌋ + 1) * 2 ^ m := by exact_mod_cast hle
  rw [hround, RoundsUp, hpow, ← div_eq_mul_inv]
  refine ⟨(le_div_iff₀ hpos).mpr hgeq, (div_le_iff₀ hpos).mpr hleq, ?_⟩
  calc (roundEven (q * 2 ^ m) : ℚ) / 2 ^ m = ⌊q⌋ + 1
      ↔ (roundEven (q * 2 ^ m) : ℚ) = (⌊q⌋ + 1) * 2 ^ m := div_eq_iff hpos.ne'
    _ ↔ roundEven (q * 2 ^ m) = (⌊q⌋ + 1) * 2 ^ m := by norm_cast
    _ ↔ (((⌊q⌋ + 1) * 2 ^ m : ℤ) : ℚ) - q * 2 ^ m ≤ 1 / 2 := hiff
    _ ↔ (⌊q⌋ + 1 - q) * 2 ^ m ≤ 1 / 2 := by
        push_cast
        rw [sub_mul]
    _ ↔ ⌊q⌋ + 1 - q ≤ 1 / 2 / 2 ^ m := (le_div_iff₀ hpos).symm
    _ ↔ (⌊q⌋ : ℚ) + 1 - q ≤ (2 ^ m)⁻¹ / 2 := by rw [div_div, mul_comm, ← div_div, one_div]

/-- A number that is not near the next whole number. -/
theorem not_roundsUp (h : |q| < 2 ^ 22) (hfar : q ≤ ⌊q⌋ + 1 / 2) : ¬RoundsUp q := by
  obtain ⟨m, hm, hpow, _⟩ := exists_places h
  have hsmall : ((2 : ℚ) ^ m)⁻¹ ≤ (2 ^ 2)⁻¹ :=
    inv_anti₀ (by norm_num) (pow_le_pow_right₀ one_le_two hm)
  rw [RoundsUp, hpow]
  intro hup
  linarith

/-! ### Order -/

theorem round_nonneg (hq : 0 ≤ q) : 0 ≤ round q := by
  have hpow : (0 : ℚ) < 2 ^ lastPlace q := by positivity
  have hround : 0 ≤ roundEven (q / 2 ^ lastPlace q) :=
    le_roundEven (by push_cast; exact div_nonneg hq hpow.le)
  exact mul_nonneg (by exact_mod_cast hround) hpow.le

theorem lastPlace_mono (hp : 0 < p) (h : p ≤ q) : lastPlace p ≤ lastPlace q := by
  rw [lastPlace, lastPlace, abs_of_pos hp, abs_of_pos (hp.trans_le h)]
  exact max_le_max (Int.sub_le_sub_right (Int.log_mono_right hp h) 23) le_rfl

/-- A number has at most 24 bits before its last place. -/
theorem round_le (hp : 0 < p) : round p ≤ 2 ^ (lastPlace p + 24) := by
  have hpow : (0 : ℚ) < 2 ^ lastPlace p := by positivity
  have hlog : Int.log 2 p + 1 ≤ lastPlace p + 24 := by
    rw [lastPlace, abs_of_pos hp]
    omega
  have hlt : p ≤ 2 ^ (lastPlace p + 24) := by
    calc p ≤ ((2 : ℕ) : ℚ) ^ (Int.log 2 p + 1) := (Int.lt_zpow_succ_log_self one_lt_two p).le
      _ ≤ 2 ^ (lastPlace p + 24) := by
          push_cast
          exact zpow_le_zpow_right₀ one_le_two hlog
  have hquot : p / 2 ^ lastPlace p ≤ ((2 ^ 24 : ℤ) : ℚ) := by
    rw [div_le_iff₀ hpow]
    calc p ≤ 2 ^ (lastPlace p + 24) := hlt
      _ = ((2 ^ 24 : ℤ) : ℚ) * 2 ^ lastPlace p := by
          rw [zpow_add₀ two_ne_zero, mul_comm]
          norm_num
  have hround : roundEven (p / 2 ^ lastPlace p) ≤ 2 ^ 24 := by
    exact (roundEven_mono hquot).trans_eq (roundEven_intCast _)
  calc round p = roundEven (p / 2 ^ lastPlace p) * 2 ^ lastPlace p := rfl
    _ ≤ ((2 ^ 24 : ℤ) : ℚ) * 2 ^ lastPlace p :=
        mul_le_mul_of_nonneg_right (by exact_mod_cast hround) hpow.le
    _ = 2 ^ (lastPlace p + 24) := by
        rw [zpow_add₀ two_ne_zero, mul_comm]
        norm_num

/-- Above the smallest numbers the first of the 24 bits is set. -/
theorem le_round (hq : 0 < q) (hplace : -149 < lastPlace q) : 2 ^ (lastPlace q + 23) ≤ round q := by
  have hpow : (0 : ℚ) < 2 ^ lastPlace q := by positivity
  have hlog : lastPlace q + 23 = Int.log 2 q := by
    rw [lastPlace, abs_of_pos hq] at hplace ⊢
    omega
  have hle : (2 : ℚ) ^ (lastPlace q + 23) ≤ q := by
    rw [hlog]
    exact_mod_cast Int.zpow_log_le_self one_lt_two hq
  have hsplit : (2 : ℚ) ^ (lastPlace q + 23) = ((2 ^ 23 : ℤ) : ℚ) * 2 ^ lastPlace q := by
    rw [zpow_add₀ two_ne_zero, mul_comm]
    norm_num
  have hquot : ((2 ^ 23 : ℤ) : ℚ) ≤ q / 2 ^ lastPlace q := by
    rw [le_div_iff₀ hpow, ← hsplit]
    exact hle
  calc (2 : ℚ) ^ (lastPlace q + 23) = ((2 ^ 23 : ℤ) : ℚ) * 2 ^ lastPlace q := hsplit
    _ ≤ roundEven (q / 2 ^ lastPlace q) * 2 ^ lastPlace q :=
        mul_le_mul_of_nonneg_right (by exact_mod_cast le_roundEven hquot) hpow.le

theorem round_mono (hp : 0 < p) (h : p ≤ q) : round p ≤ round q := by
  rcases eq_or_lt_of_le (lastPlace_mono hp h) with hsame | hbelow
  · have hpow : (0 : ℚ) < 2 ^ lastPlace q := by positivity
    rw [round, round, hsame]
    refine mul_le_mul_of_nonneg_right ?_ hpow.le
    exact_mod_cast roundEven_mono (div_le_div_of_nonneg_right h hpow.le)
  · have hplace : -149 < lastPlace q := lt_of_le_of_lt (le_max_right _ _) hbelow
    calc round p ≤ 2 ^ (lastPlace p + 24) := round_le hp
      _ ≤ 2 ^ (lastPlace q + 23) := zpow_le_zpow_right₀ one_le_two (by omega)
      _ ≤ round q := le_round (hp.trans_le h) hplace

theorem round_pos (hq : 1 ≤ q) : 0 < round q := by
  have hlog : 0 ≤ Int.log 2 q := by
    calc 0 = Int.log 2 (1 : ℚ) := (Int.log_one_right 2).symm
      _ ≤ Int.log 2 q := Int.log_mono_right one_pos hq
  have hplace : -149 < lastPlace q := by
    rw [lastPlace, abs_of_pos (one_pos.trans_le hq)]
    omega
  have hpow : (0 : ℚ) < 2 ^ (lastPlace q + 23) := by positivity
  exact hpow.trans_le (le_round (one_pos.trans_le hq) hplace)
end Single

end Iceee.Lib
