import Iceee.Lib.DoubleText
import Iceee.Lib.Machine
import Iceee.Lib.Single

/-!
# The bits of a `float`

A `float` has a sign, eight bits of an exponent and 23 bits of a fraction. A rational number is
rounded to the nearest `float`, and a `float` is printed and read as the `double` that it is.

## Main results

* `value_ofRat`: the `float` of a number has the rounded number as its value.
* `value_ofText_format`: a `float` that `%g` prints exactly is read as it was.
-/

namespace Iceee.Lib

/-- A `float`. -/
structure Single where
  bits : BitVec 32
  deriving DecidableEq

namespace Single

/-! ### Values -/

/-- The number that the bits below the sign stand for. -/
def magnitude (n : ℕ) : ℚ :=
  if n < 2 ^ 23 then n * 2 ^ (-149 : ℤ)
  else (2 ^ 23 + n % 2 ^ 23 : ℕ) * 2 ^ ((n / 2 ^ 23 : ℕ) - 150 : ℤ)

def negative (x : Single) : Bool := decide (2 ^ 31 ≤ x.bits.toNat)

/-- The bits below the sign. -/
def low (x : Single) : ℕ := x.bits.toNat % 2 ^ 31

/-- The bits of an infinity below the sign. -/
def infinityBits : ℕ := 255 * 2 ^ 23

def value (x : Single) : Double :=
  if x.low < infinityBits then
    .finite (if x.negative then -magnitude x.low else magnitude x.low)
  else if x.low = infinityBits then .infinite x.negative
  else .nan

/-- A sign and the bits below it. -/
def make (negative : Bool) (low : ℕ) : Single where
  bits := BitVec.ofNat 32 (if negative then 2 ^ 31 + low else low)

/-- The bits of a rounded number below the sign. -/
def roundBits (q : ℚ) : ℕ :=
  if q = 0 then 0
  else min ((lastPlace q + 149).toNat * 2 ^ 23 + (roundEven (|q| / 2 ^ lastPlace q)).toNat)
    infinityBits

/-- The nearest `float`. -/
def ofRat (q : ℚ) : Single := make (q < 0) (roundBits q)

def ofInt (n : ℤ) : Single := ofRat n

/-- A `double` as a `float`. -/
def ofDouble : Double → Single
  | .finite q => ofRat q
  | .infinite negative => make negative infinityBits
  | .nan => make false (infinityBits + 2 ^ 22)

section Make

variable {negative : Bool} {n : ℕ}

theorem low_make (h : n < 2 ^ 31) : (make negative n).low = n := by
  rw [low, make, BitVec.toNat_ofNat]
  split <;> omega

theorem negative_make (h : n < 2 ^ 31) : (make negative n).negative = negative := by
  rw [Single.negative, make, BitVec.toNat_ofNat]
  cases negative
  · rw [if_neg Bool.false_ne_true, decide_eq_false_iff_not]
    omega
  · rw [if_pos rfl, decide_eq_true_iff]
    omega

theorem value_make (h : n < infinityBits) :
    (make negative n).value = .finite (if negative then -magnitude n else magnitude n) := by
  have hn : n < 2 ^ 31 := h.trans (by decide)
  rw [value, low_make hn, negative_make hn, if_pos h]

theorem value_infinity (negative : Bool) :
    (make negative infinityBits).value = .infinite negative := by
  have hn : infinityBits < 2 ^ 31 := by decide
  rw [value, low_make hn, negative_make hn, if_neg (lt_irrefl _), if_pos rfl]

end Make

theorem magnitude_zero : magnitude 0 = 0 := by simp [magnitude]

/-- The bits of a last place and of a number of such places. -/
theorem magnitude_eq {P n : ℕ} (hn : n ≤ 2 ^ 24) (h : P = 0 ∨ 2 ^ 23 ≤ n) :
    magnitude (P * 2 ^ 23 + n) = n * 2 ^ (P - 149 : ℤ) := by
  rcases lt_or_ge n (2 ^ 23) with hlow | hhigh
  · obtain rfl : P = 0 := h.resolve_right (not_le.mpr hlow)
    rw [Nat.zero_mul, Nat.zero_add, magnitude, if_pos hlow]
    rfl
  · have hbig : ¬P * 2 ^ 23 + n < 2 ^ 23 := by omega
    rw [magnitude, if_neg hbig]
    rcases eq_or_lt_of_le hn with rfl | hlt
    · have hdiv : (P * 2 ^ 23 + 2 ^ 24) / 2 ^ 23 = P + 2 := by omega
      have hmod : (P * 2 ^ 23 + 2 ^ 24) % 2 ^ 23 = 0 := by omega
      have hexp : ((P + 2 : ℕ) : ℤ) - 150 = (P - 149 : ℤ) + 1 := by omega
      rw [hdiv, hmod, hexp, zpow_add₀ two_ne_zero]
      push_cast
      ring
    · have hdiv : (P * 2 ^ 23 + n) / 2 ^ 23 = P + 1 := by omega
      have hmod : 2 ^ 23 + (P * 2 ^ 23 + n) % 2 ^ 23 = n := by omega
      have hexp : ((P + 1 : ℕ) : ℤ) - 150 = P - 149 := by omega
      rw [hdiv, hmod, hexp]

/-! ### Numbers that are not rounded -/

/-- A number that is a `float`, were there no largest. -/
def IsSingle (q : ℚ) : Prop := round q = q

instance (q : ℚ) : Decidable (IsSingle q) := inferInstanceAs (Decidable (_ = _))

/-- A whole number of places of a given size is a whole number of larger ones' parts. -/
theorem exists_places_of_le {m e p : ℤ} (h : p ≤ e) :
    ∃ k : ℤ, (m * 2 ^ e : ℚ) = k * 2 ^ p := by
  obtain ⟨d, hd⟩ := Int.eq_ofNat_of_zero_le (sub_nonneg.mpr h)
  refine ⟨m * 2 ^ d, ?_⟩
  have he : e = d + p := by omega
  rw [he, zpow_add₀ two_ne_zero, zpow_natCast]
  push_cast
  ring

theorem log_le {m e : ℤ} {b : ℕ} (hm : |m| < 2 ^ b) (hne : m ≠ 0) :
    Int.log 2 |(m * 2 ^ e : ℚ)| < b + e := by
  have hpow : (0 : ℚ) < 2 ^ e := by positivity
  have hcast : (m : ℚ) ≠ 0 := by exact_mod_cast hne
  have hpos : 0 < |(m * 2 ^ e : ℚ)| := abs_pos.mpr (mul_ne_zero hcast hpow.ne')
  refine (Int.lt_zpow_iff_log_lt one_lt_two hpos).mp ?_
  rw [abs_mul, abs_of_pos hpow, Nat.cast_ofNat, zpow_add₀ two_ne_zero, zpow_natCast]
  refine mul_lt_mul_of_pos_right ?_ hpow
  exact_mod_cast hm

theorem roundEven_places {q : ℚ} {k p : ℤ} (h : q = k * 2 ^ p) :
    roundEven (q / 2 ^ p) * (2 : ℚ) ^ p = q := by
  have hpow : (2 : ℚ) ^ p ≠ 0 := by positivity
  rw [h, mul_div_assoc, div_self hpow, mul_one, roundEven_intCast]

/-- Numbers of at most 24 bits are not rounded. -/
theorem isSingle_of_eq {q : ℚ} {m e : ℤ} (hm : |m| < 2 ^ 24) (he : -149 ≤ e)
    (hq : q = m * 2 ^ e) : IsSingle q := by
  rcases eq_or_ne m 0 with rfl | hne
  · rw [hq, Int.cast_zero, zero_mul]
    exact round_zero
  · have hlog := @log_le m e 24 hm hne
    have hle : lastPlace q ≤ e := by
      rw [lastPlace, hq]
      exact max_le (by omega) he
    obtain ⟨k, hk⟩ := @exists_places_of_le m e _ hle
    exact roundEven_places (hq.trans hk)

/-- They are `double`s. -/
theorem ofRat_double_of_eq {q : ℚ} {m e : ℤ} (hm : |m| < 2 ^ 24) (he : -149 ≤ e)
    (hq : q = m * 2 ^ e) (hlt : |q| < 2 ^ 128) : Double.ofRat q = .finite q := by
  have hnearest : Double.nearest q = q := by
    rcases eq_or_ne m 0 with rfl | hne
    · rw [hq, Int.cast_zero, zero_mul]
      exact @Double.nearest_of_dvd 0 (by simp [Double.lastPlace])
    · have hlog := @log_le m e 24 hm hne
      have hle : Double.lastPlace q ≤ e := by
        rw [Double.lastPlace, hq]
        exact max_le (by omega) (by omega)
      obtain ⟨k, hk⟩ := @exists_places_of_le m e _ hle
      exact roundEven_places (hq.trans hk)
  have hbig : ¬(2 : ℚ) ^ 1024 ≤ |q| :=
    not_le.mpr (hlt.trans (pow_lt_pow_right₀ one_lt_two (by norm_num)))
  rw [Double.ofRat, hnearest, if_neg hbig]

/-! ### Rounding to bits -/

/-- A rounded number has at most 24 bits, and all of them but among the smallest numbers. -/
theorem roundEven_abs {q : ℚ} (hq : q ≠ 0) :
    (0 ≤ roundEven (|q| / 2 ^ lastPlace q) ∧ roundEven (|q| / 2 ^ lastPlace q) ≤ 2 ^ 24) ∧
      (-149 < lastPlace q → 2 ^ 23 ≤ roundEven (|q| / 2 ^ lastPlace q)) := by
  have hpos : 0 < |q| := abs_pos.mpr hq
  have hplace : lastPlace |q| = lastPlace q := by rw [lastPlace, lastPlace, abs_abs]
  have hpow : (0 : ℚ) < 2 ^ lastPlace q := by positivity
  have hround : round |q| = roundEven (|q| / 2 ^ lastPlace q) * 2 ^ lastPlace q := by
    rw [round, hplace]
  have hsplit (b : ℕ) : (2 : ℚ) ^ (lastPlace q + b) = ((2 ^ b : ℤ) : ℚ) * 2 ^ lastPlace q := by
    rw [zpow_add₀ two_ne_zero, mul_comm, zpow_natCast]
    push_cast
    rfl
  refine ⟨⟨?_, ?_⟩, fun h => ?_⟩
  · exact le_roundEven (by push_cast; exact div_nonneg hpos.le hpow.le)
  · have hle := round_le hpos
    rw [hround, hplace] at hle
    exact_mod_cast le_of_mul_le_mul_right (hle.trans_eq (hsplit 24)) hpow
  · have hle := le_round hpos (h.trans_eq hplace.symm)
    rw [hround, hplace] at hle
    exact_mod_cast le_of_mul_le_mul_right ((hsplit 23).symm.trans_le hle) hpow

theorem abs_round (q : ℚ) : |round q| = round |q| := by
  rcases le_total 0 q with h | h
  · rw [abs_of_nonneg h, abs_of_nonneg (round_nonneg h)]
  · rw [abs_of_nonpos h, round_neg, abs_of_nonpos]
    have hneg := round_nonneg (neg_nonneg.mpr h)
    rw [round_neg] at hneg
    linarith

theorem lastPlace_abs (q : ℚ) : lastPlace |q| = lastPlace q := by
  rw [lastPlace, lastPlace, abs_abs]

/-- Below 2^128 there are fewer bits than those of the infinity. -/
theorem bits_lt {P n : ℕ} (hn : n ≤ 2 ^ 24) (hor : P = 0 ∨ 2 ^ 23 ≤ n)
    (h : (n * 2 ^ (P - 149 : ℤ) : ℚ) < 2 ^ 128) : P * 2 ^ 23 + n < infinityBits := by
  have hbits : infinityBits = 255 * 2 ^ 23 := rfl
  by_contra hge
  rcases eq_or_lt_of_le (show 253 ≤ P by omega) with rfl | hP
  · obtain rfl : n = 2 ^ 24 := by omega
    norm_num at h
  · have hfull : 2 ^ 23 ≤ n := hor.resolve_left (by omega)
    have hcast : (2 : ℚ) ^ 23 ≤ n := by exact_mod_cast hfull
    have hpow : (2 : ℚ) ^ (105 : ℤ) ≤ 2 ^ (P - 149 : ℤ) :=
      zpow_le_zpow_right₀ one_le_two (by omega)
    have hbig : (2 : ℚ) ^ 128 ≤ n * 2 ^ (P - 149 : ℤ) := by
      calc (2 : ℚ) ^ 128 = (2 : ℚ) ^ 23 * (2 : ℚ) ^ (105 : ℤ) := by norm_num
        _ ≤ (n : ℚ) * 2 ^ (P - 149 : ℤ) := mul_le_mul hcast hpow (by positivity) (by positivity)
    exact absurd h (not_lt.mpr hbig)

/-- Below the largest number the bits are those of the rounded number. -/
theorem magnitude_roundBits {q : ℚ} (h : |round q| < 2 ^ 128) :
    roundBits q < infinityBits ∧ magnitude (roundBits q) = |round q| := by
  rcases eq_or_ne q 0 with rfl | hq
  · rw [roundBits, if_pos rfl, round_zero, abs_zero, magnitude_zero]
    exact ⟨by decide, rfl⟩
  · obtain ⟨⟨hlow, hhigh⟩, hfull⟩ := roundEven_abs hq
    have hsmallest : -149 ≤ lastPlace q := le_max_right _ _
    obtain ⟨n, hn⟩ := Int.eq_ofNat_of_zero_le hlow
    obtain ⟨P, hP⟩ := Int.eq_ofNat_of_zero_le (show 0 ≤ lastPlace q + 149 by omega)
    have hplace : lastPlace q = P - 149 := by omega
    have hle : n ≤ 2 ^ 24 := by omega
    have hor : P = 0 ∨ 2 ^ 23 ≤ n := by
      rcases Nat.eq_zero_or_pos P with hzero | hpos
      · exact .inl hzero
      · have h23 := hfull (by omega)
        exact .inr (by omega)
    have hround : |round q| = n * 2 ^ (P - 149 : ℤ) := by
      rw [abs_round, round, lastPlace_abs, hn, hplace]
      rfl
    have hlt := bits_lt hle hor (hround.symm.trans_lt h)
    have hbits : roundBits q = P * 2 ^ 23 + n := by
      rw [roundBits, if_neg hq, hn, hP]
      exact min_eq_left hlt.le
    rw [hbits, magnitude_eq hle hor, hround]
    exact ⟨hlt, rfl⟩

theorem value_ofRat {q : ℚ} (h : |round q| < 2 ^ 128) : (ofRat q).value = .finite (round q) := by
  obtain ⟨hlt, hmag⟩ := magnitude_roundBits h
  rw [ofRat, value_make hlt, hmag]
  congr 1
  by_cases hneg : q < 0
  · have hround : round q ≤ 0 := by
      have hnonneg := round_nonneg (neg_nonneg.mpr hneg.le)
      rw [round_neg] at hnonneg
      linarith
    rw [if_pos (decide_eq_true hneg), abs_of_nonpos hround, neg_neg]
  · rw [if_neg (by simpa using hneg), abs_of_nonneg (round_nonneg (not_lt.mp hneg))]

/-! ### The value of a `float` -/

theorem exists_magnitude {n : ℕ} (h : n < infinityBits) :
    (∃ m e : ℤ, |m| < 2 ^ 24 ∧ -149 ≤ e ∧ magnitude n = m * 2 ^ e) ∧
      0 ≤ magnitude n ∧ magnitude n < 2 ^ 128 := by
  have hbits : infinityBits = 255 * 2 ^ 23 := rfl
  by_cases hlow : n < 2 ^ 23
  · have heq : magnitude n = n * 2 ^ (-149 : ℤ) := if_pos hlow
    refine ⟨⟨n, -149, ?_, le_rfl, by rw [heq, Int.cast_natCast]⟩, ?_⟩
    · rw [Nat.abs_cast]
      omega
    · have hcast : (n : ℚ) < 2 ^ 23 := by exact_mod_cast hlow
      rw [heq]
      refine ⟨by positivity, ?_⟩
      calc (n : ℚ) * 2 ^ (-149 : ℤ) < 2 ^ 23 * 2 ^ (-149 : ℤ) :=
            mul_lt_mul_of_pos_right hcast (by positivity)
        _ < 2 ^ 128 := by norm_num
  · have heq : magnitude n = (2 ^ 23 + n % 2 ^ 23 : ℕ) * 2 ^ ((n / 2 ^ 23 : ℕ) - 150 : ℤ) :=
      if_neg hlow
    have hfraction : 2 ^ 23 + n % 2 ^ 23 < 2 ^ 24 := by omega
    refine ⟨⟨(2 ^ 23 + n % 2 ^ 23 : ℕ), (n / 2 ^ 23 : ℕ) - 150, ?_, by omega, ?_⟩, ?_⟩
    · rw [Nat.abs_cast]
      exact_mod_cast hfraction
    · rw [heq, Int.cast_natCast]
    · have hcast : ((2 ^ 23 + n % 2 ^ 23 : ℕ) : ℚ) < 2 ^ 24 := by exact_mod_cast hfraction
      rw [heq]
      refine ⟨by positivity, ?_⟩
      calc ((2 ^ 23 + n % 2 ^ 23 : ℕ) : ℚ) * 2 ^ ((n / 2 ^ 23 : ℕ) - 150 : ℤ)
        _ < 2 ^ 24 * 2 ^ ((n / 2 ^ 23 : ℕ) - 150 : ℤ) :=
            mul_lt_mul_of_pos_right hcast (by positivity)
        _ ≤ 2 ^ 24 * 2 ^ (104 : ℤ) :=
            mul_le_mul_of_nonneg_left (zpow_le_zpow_right₀ one_le_two (by omega)) (by positivity)
        _ = 2 ^ 128 := by norm_num

section Value

variable {x : Single} {q : ℚ}

theorem value_cases (x : Single) : (∃ q, x.value = .finite q) ∨ (∃ s, x.value = .infinite s) ∨
    x.value = .nan := by
  rw [value]
  split
  · exact .inl ⟨_, rfl⟩
  · split
    · exact .inr (.inl ⟨_, rfl⟩)
    · exact .inr (.inr rfl)

/-- The number that a `float` is has 24 bits at most. -/
theorem exists_of_value (h : x.value = .finite q) :
    (∃ m e : ℤ, |m| < 2 ^ 24 ∧ -149 ≤ e ∧ q = m * 2 ^ e) ∧ |q| < 2 ^ 128 := by
  rw [value] at h
  split at h
  · next hlow =>
      obtain ⟨⟨m, e, hm, he, hmag⟩, hnonneg, hlt⟩ := exists_magnitude hlow
      obtain rfl := Double.finite.inj h
      split
      · refine ⟨⟨-m, e, by rwa [abs_neg], he, ?_⟩, by rwa [abs_neg, abs_of_nonneg hnonneg]⟩
        rw [hmag]
        push_cast
        ring
      · exact ⟨⟨m, e, hm, he, hmag⟩, by rwa [abs_of_nonneg hnonneg]⟩
  · split at h
    · cases h
    · cases h

theorem isSingle_of_value (h : x.value = .finite q) : IsSingle q := by
  obtain ⟨⟨m, e, hm, he, hq⟩, -⟩ := exists_of_value h
  exact isSingle_of_eq hm he hq

/-- A number that is a `float` has itself as its value. -/
theorem value_ofRat_of_isSingle (hq : IsSingle q) (hlt : |q| < 2 ^ 128) :
    (ofRat q).value = .finite q := by
  have hround : round q = q := hq
  rw [value_ofRat (by rwa [hround]), hround]

theorem ofRat_double_of_value (h : x.value = .finite q) : Double.ofRat q = .finite q := by
  obtain ⟨⟨m, e, hm, he, hq⟩, hlt⟩ := exists_of_value h
  exact ofRat_double_of_eq hm he hq hlt

end Value

/-! ### Whole numbers -/

/-- A whole number is rounded to a whole number. -/
theorem exists_round_eq (n : ℤ) : ∃ k : ℤ, round n = k := by
  rcases le_total 0 (lastPlace n) with h | h
  · obtain ⟨d, hd⟩ := Int.eq_ofNat_of_zero_le h
    refine ⟨roundEven (n / 2 ^ lastPlace n) * 2 ^ d, ?_⟩
    rw [round]
    nth_rewrite 2 [hd]
    rw [zpow_natCast]
    push_cast
    rfl
  · obtain ⟨k, hk⟩ := @exists_places_of_le n 0 _ h
    rw [zpow_zero, mul_one] at hk
    exact ⟨n, roundEven_places hk⟩

theorem isSingle_intCast {n : ℤ} (h : |n| < 2 ^ 24) : IsSingle n :=
  @isSingle_of_eq n n 0 h (by decide) (by rw [zpow_zero, mul_one])

/-- The numbers of an `int` are far from the largest `float`. -/
theorem abs_round_lt {n : ℤ} (h : |n| ≤ 2 ^ 31) : |round n| < 2 ^ 128 := by
  have hbig : round ((2 ^ 31 : ℤ) : ℚ) = (2 ^ 31 : ℤ) :=
    @isSingle_of_eq _ 1 31 (by decide) (by decide) (by norm_num)
  have hle : round |(n : ℚ)| ≤ (2 ^ 31 : ℤ) := by
    rcases eq_or_ne n 0 with rfl | hne
    · rw [Int.cast_zero, abs_zero, round_zero]
      norm_num
    · have hcast : (n : ℚ) ≠ 0 := by exact_mod_cast hne
      exact (round_mono (abs_pos.mpr hcast) (by exact_mod_cast h)).trans_eq hbig
  rw [abs_round]
  exact hle.trans_lt (by norm_num)

theorem value_ofInt {n : ℤ} (h : |n| ≤ 2 ^ 31) : (ofInt n).value = .finite (round n) :=
  value_ofRat (abs_round_lt h)

/-- Conversion to an integer; the result has to be in the range of the type. -/
def toInt (x : Single) : Option ℤ :=
  match x.value with
  | .finite q => some (trunc q)
  | _ => none

theorem toInt_of_value {x : Single} {n : ℤ} (h : x.value = .finite n) : x.toInt = some n := by
  rw [toInt, h]
  exact congrArg some (trunc_intCast n)

/-- A whole number comes back from a `float` exactly when it is one. -/
theorem toInt_ofInt_iff {n : ℤ} (h : |n| ≤ 2 ^ 31) : (ofInt n).toInt = some n ↔ IsSingle n := by
  obtain ⟨k, hk⟩ := exists_round_eq n
  have hvalue : (ofInt n).value = .finite k := by rw [value_ofInt h, hk]
  rw [toInt_of_value hvalue, Option.some_inj, IsSingle, hk, Int.cast_inj]

/-! ### Text -/

/-- `%g`; a zero and what is no number are printed with their sign. -/
def format (x : Single) : Text :=
  if x.negative ∧ (x.value = .finite 0 ∨ x.value = .nan) then '-' :: x.value.format
  else x.value.format

/-- `(float) atof`, where a zero keeps the sign of the text. -/
def ofText (t : Text) : Single :=
  match Double.atof t with
  | .finite q =>
      if q = 0 then make ((t.dropWhile Char.isWhitespace).head? = some '-') 0 else ofRat q
  | d => ofDouble d

/-- The digits that `%g` prints denote the number exactly. -/
def PrintsExactly : Double → Prop
  | .finite q => q = 0 ∨ Double.readDecimal (Double.formatAbs q) = |q|
  | .infinite _ => True
  | .nan => False

end Single

namespace Double

/-- A number is printed with a digit in front. -/
theorem exists_formatAbs_eq (q : ℚ) : ∃ c t, formatAbs q = c :: t ∧ c.isDigit := by
  have hpointed (c : Char) (whole fraction : Text) :
      ∃ t, pointed (c :: whole) fraction = c :: t := by
    rw [pointed]
    split
    · exact ⟨whole, rfl⟩
    · exact ⟨_, rfl⟩
  obtain ⟨c, rest, hprint⟩ := List.exists_cons_of_ne_nil (printNat_ne_nil (significant q).1)
  have hc : c.isDigit := isDigit_of_mem_printNat (hprint ▸ List.mem_cons_self)
  rw [formatAbs]
  simp only [hprint]
  split
  · obtain ⟨t, ht⟩ := hpointed c [] rest
    exact ⟨c, t ++ _, by rw [List.take_succ_cons, List.take_zero, List.drop_succ_cons,
      List.drop_zero, ht, List.cons_append], hc⟩
  · split
    · obtain ⟨t, ht⟩ := hpointed '0' []
        (List.replicate ((significant q).2.natAbs - 1) '0' ++ c :: rest)
      exact ⟨'0', t, ht, rfl⟩
    · obtain ⟨t, ht⟩ := hpointed c (rest.take (significant q).2.toNat)
        (rest.drop (significant q).2.toNat)
      exact ⟨c, t, by rw [List.take_succ_cons, List.drop_succ_cons, ht], hc⟩

theorem atof_zero : atof ['0'] = finite 0 ∧ atof ['-', '0'] = finite 0 := by
  have hzero : ofInt 0 = finite 0 := by
    have hexact : IsDouble 0 := isDouble_of_lt (by norm_num)
    rwa [IsDouble, Int.cast_zero] at hexact
  have hread : parseNat ['0'] = 0 := rfl
  obtain ⟨hplain, hminus⟩ := @atof_digits ['0'] (by decide) (by simp)
  rw [hread, Nat.cast_zero, hzero] at hplain
  rw [hread, Nat.cast_zero, neg_zero, hzero] at hminus
  exact ⟨hplain, hminus⟩

/-- What is printed exactly is read as the nearest `double`. -/
theorem atof_format_of_exact {q : ℚ} (hq : q ≠ 0) (h : readDecimal (formatAbs q) = |q|) :
    atof (format (finite q)) = ofRat q := by
  obtain ⟨c, t, hformat, hc⟩ := exists_formatAbs_eq q
  rw [hformat] at h
  rw [format, if_neg hq, hformat]
  split
  · next hneg => rw [atof_minus_digit hc, h, abs_of_neg hneg, neg_neg]
  · next hneg => rw [atof_digit hc, h, abs_of_nonneg (not_lt.mp hneg)]

end Double

namespace Single

theorem value_make_zero (negative : Bool) : (make negative 0).value = .finite 0 := by
  rw [value_make (by decide), magnitude_zero]
  cases negative <;> rfl

/-- A whole number that is a `float` is read exactly. -/
theorem value_ofText_printInt {n : ℤ} (hn : |n| ≤ 2 ^ 31) (h : IsSingle n) :
    (ofText (printInt n)).value = .finite n := by
  have hexact : Double.ofInt n = .finite n := Double.isDouble_of_lt (by omega)
  rw [ofText, Double.atof_printInt, hexact]
  rcases eq_or_ne n 0 with rfl | hne
  · simp only [Int.cast_zero, if_true]
    exact value_make_zero _
  · have hcast : (n : ℚ) ≠ 0 := by exact_mod_cast hne
    simp only [if_neg hcast]
    exact (value_ofInt hn).trans (congrArg Double.finite h)

/-- A `float` that `%g` prints exactly is read as it was. -/
theorem value_ofText_format {x : Single} (h : PrintsExactly x.value) :
    (ofText x.format).value = x.value := by
  rcases value_cases x with ⟨q, hq⟩ | ⟨s, hs⟩ | hnan
  · rcases eq_or_ne q 0 with rfl | hne
    · have hatof : Double.atof x.format = .finite 0 := by
        rw [format, hq]
        split
        · exact Double.atof_zero.2
        · exact Double.atof_zero.1
      rw [ofText, hatof, hq]
      exact value_make_zero _
    · have hsign : ¬(x.negative ∧ (x.value = .finite 0 ∨ x.value = .nan)) := by
        rw [hq]
        rintro ⟨-, h | h⟩
        · exact hne (Double.finite.inj h)
        · cases h
      rw [hq] at h
      rw [ofText, format, if_neg hsign, hq, Double.atof_format_of_exact hne (h.resolve_left hne),
        ofRat_double_of_value hq]
      simp only [if_neg hne]
      exact value_ofRat_of_isSingle (isSingle_of_value hq) (exists_of_value hq).2
  · have hsign : ¬(x.negative ∧ (x.value = .finite 0 ∨ x.value = .nan)) := by
      rw [hs]
      rintro ⟨-, h | h⟩ <;> cases h
    have hatof : Double.atof (Double.format (.infinite s)) = .infinite s := by
      cases s <;> rfl
    rw [ofText, format, if_neg hsign, hs, hatof]
    exact value_infinity s
  · rw [hnan] at h
    exact h.elim

end Single

end Iceee.Lib
