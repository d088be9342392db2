import Mathlib

/-!
# Floating-point numbers with 53 bits

A `double` is a rational number, an infinity or no number. The result of an operation is the exact
one, rounded to the nearest number with 53 significant bits, in a tie to the even one.

## Implementation notes

The two zeros are one number here: they compare equal, and they differ only in a quotient by zero,
which has no result here either.
-/

namespace Iceee.Lib

/-- The nearest integer; in a tie the even one. -/
def roundEven (q : ℚ) : ℤ :=
  if q - ⌊q⌋ < 1 / 2 then ⌊q⌋
  else if 1 / 2 < q - ⌊q⌋ then ⌊q⌋ + 1
  else if ⌊q⌋ % 2 = 0 then ⌊q⌋ else ⌊q⌋ + 1

@[simp] theorem roundEven_intCast (n : ℤ) : roundEven n = n := by
  rw [roundEven, Int.floor_intCast, sub_self, if_pos (by norm_num)]

inductive Double where
  | finite (q : ℚ)
  | infinite (negative : Bool)
  | nan
  deriving DecidableEq

namespace Double

/-- The exponent of the last place of a number. -/
def lastPlace (q : ℚ) : ℤ := max (Int.log 2 |q| - 52) (-1074)

/-- The number that is rounded to, were there no largest. -/
def nearest (q : ℚ) : ℚ := roundEven (q / 2 ^ lastPlace q) * 2 ^ lastPlace q

/-- Rounding. -/
def ofRat (q : ℚ) : Double :=
  if 2 ^ 1024 ≤ |nearest q| then .infinite (q < 0) else .finite (nearest q)

def ofInt (n : ℤ) : Double := ofRat n

def neg : Double → Double
  | finite q => finite (-q)
  | infinite s => infinite !s
  | nan => nan

def add : Double → Double → Double
  | finite a, finite b => ofRat (a + b)
  | infinite s, infinite t => if s = t then infinite s else nan
  | infinite s, finite _ => infinite s
  | finite _, infinite t => infinite t
  | nan, _ => nan
  | _, nan => nan

def sub (a b : Double) : Double := add a (neg b)

def mul : Double → Double → Double
  | finite a, finite b => ofRat (a * b)
  | infinite s, infinite t => infinite (s != t)
  | infinite s, finite b => if b = 0 then nan else infinite (s != decide (b < 0))
  | finite a, infinite t => if a = 0 then nan else infinite (decide (a < 0) != t)
  | nan, _ => nan
  | _, nan => nan

/-- The quotient, when the divisor is not zero. -/
def div : Double → Double → Double
  | finite a, finite b => if b = 0 then nan else ofRat (a / b)
  | infinite _, infinite _ => nan
  | infinite s, finite b => infinite (s != decide (b < 0))
  | finite _, infinite _ => finite 0
  | nan, _ => nan
  | _, nan => nan

/-- The integers that a double can be. -/
def IsDouble (n : ℤ) : Prop := ofInt n = finite n

instance (n : ℤ) : Decidable (IsDouble n) := inferInstanceAs (Decidable (ofInt n = finite n))

/-- A whole number of last places is not rounded. -/
theorem nearest_of_dvd {n : ℤ} (h : lastPlace n ≤ 0) : nearest n = n := by
  obtain ⟨k, hk⟩ := Int.eq_ofNat_of_zero_le (neg_nonneg.mpr h)
  have hplace : lastPlace n = -(k : ℤ) := by omega
  have hwhole : (n : ℚ) / 2 ^ lastPlace n = ((n * 2 ^ k : ℤ) : ℚ) := by
    rw [hplace, zpow_neg, zpow_natCast, div_inv_eq_mul]
    push_cast
    rfl
  rw [nearest, hwhole, roundEven_intCast, hplace, zpow_neg, zpow_natCast]
  push_cast
  exact mul_inv_cancel_right₀ (pow_ne_zero k two_ne_zero) (n : ℚ)

theorem lastPlace_le {n : ℤ} (h : |n| < 2 ^ 53) : lastPlace n ≤ 0 := by
  rw [lastPlace]
  refine max_le ?_ (by norm_num)
  rcases eq_or_ne n 0 with rfl | hne
  · simp
  · have hpos : (0 : ℚ) < |(n : ℚ)| := by
      have hcast : (n : ℚ) ≠ 0 := by exact_mod_cast hne
      exact abs_pos.mpr hcast
    have hlt : |(n : ℚ)| < ((2 : ℕ) : ℚ) ^ (53 : ℤ) := by exact_mod_cast h
    have hlog := (Int.lt_zpow_iff_log_lt one_lt_two hpos).mp hlt
    omega

/-- Integers below 2^53 are exact. -/
theorem isDouble_of_lt {n : ℤ} (h : |n| < 2 ^ 53) : IsDouble n := by
  have hnearest := nearest_of_dvd (lastPlace_le h)
  have hbig : ¬(2 : ℚ) ^ 1024 ≤ |(n : ℚ)| := by
    have hlt : |(n : ℚ)| < 2 ^ 53 := by exact_mod_cast h
    have hpow : (2 : ℚ) ^ 53 ≤ 2 ^ 1024 := pow_le_pow_right₀ one_le_two (by norm_num)
    exact not_le.mpr (lt_of_lt_of_le hlt hpow)
  rw [IsDouble, ofInt, ofRat, hnearest, if_neg hbig]

end Double

end Iceee.Lib
